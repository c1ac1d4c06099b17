import DriveDelta.Proofs.Rehearsal.Steps

/-!
# Steps of any rehearsal

Whether somebody leads a rehearsal or not, a step of it is one of two things: the member that has
the turn plays, or nobody does anything, and the same members take part in another order, perhaps
at a later time.  So what turns keep, whole rehearsals keep.

## What is here

* `Run.Regrouped`, what happens while nobody plays;
* `Run.Moves`, the two things that a step can be, and `Run.moves_of_advance`;
* `Run.Moves.shared` and `Run.mem_endings_settle`, what becomes of what is shared and of those who
  have ended;
* `Run.Holds`, what holds of one task at every step, with `Run.Holds.settle`;
* `Run.Runs`, which says what the body of a task is, and `Run.Runs.advance`.
-/

set_option autoImplicit false

namespace DriveDelta

/-- What every step of a machine keeps of what is shared. -/
def Machine.Keeps {σ τ ρ : Type} (m : Machine σ τ ρ) (I : σ → Prop) : Prop :=
  ∀ g s a p, m.step g s a = some p → I s → I p.shared

/-- What a task does, whether it has started or not. -/
def Member.body? {τ : Type} : Member τ → Option τ
  | later _ _ _ body | active _ _ body => some body
  | cancelAfter .. | cancelAt .. => none

namespace Run

variable {σ τ ρ : Type} {m : Machine σ τ ρ} {r r' q : Run σ τ ρ} {x y : Member τ} {i : Nat}
  {a b : τ} {context : Context} {p : Progress σ τ ρ}

/-! ## Who is who -/

theorem mem_members_of_turn (ht : r.turn = some x) : x ∈ r.members :=
  members_of_turn ht ▸ List.mem_cons_self

theorem mem_members_of_others (hy : y ∈ r.ready ++ r.line) : y ∈ r.members := by
  rw [members, List.append_assoc]
  exact List.mem_append_right _ hy

/-- Two members are not the same task, if each number is given once. -/
theorem unique_of_mem (hone : r.numbers.count i ≤ 1) (hx : x ∈ r.members)
    (hi : x.taskNumber? = some i) (hy : y ∈ r.members) (hyi : y.taskNumber? = some i) : y = x := by
  obtain ⟨s, t, hst⟩ := List.append_of_mem hx
  have hcount (l : List (Member τ)) (hl : y ∈ l) : 0 < (l.filterMap (·.taskNumber?)).count i :=
    List.count_pos_iff.2 (List.mem_filterMap.2 ⟨y, hl, hyi⟩)
  rw [numbers, hst, List.filterMap_append, List.filterMap_cons_some hi, List.count_append,
    List.count_append, List.count_cons_self] at hone
  rw [hst, List.mem_append, List.mem_cons] at hy
  rcases hy with hy | rfl | hy
  · have hpos := hcount s hy
    omega
  · rfl
  · have hpos : 0 < (t.filterMap Member.taskNumber?).count i := hcount t hy
    omega

/-- Nobody else has the number of a task that has the turn. -/
theorem unique_of_turn (hone : r.numbers.count i ≤ 1) (ht : r.turn = some x)
    (hx : x.taskNumber? = some i) :
    (∀ y ∈ r.ready ++ r.line, y.taskNumber? ≠ some i) ∧ ∀ e ∈ r.endings, e.me ≠ i := by
  have hnumbers : r.numbers = i :: ((r.ready ++ r.line).filterMap (·.taskNumber?) ++
      r.endings.map (·.me)) := by
    rw [numbers, members_of_turn ht, List.filterMap_cons, hx]
    rfl
  have hnone : i ∉ (r.ready ++ r.line).filterMap (·.taskNumber?) ++ r.endings.map (·.me) := by
    rw [hnumbers, List.count_cons_self] at hone
    exact List.count_eq_zero.1 (by omega)
  rw [List.mem_append, not_or] at hnone
  exact ⟨fun y hy hi => hnone.1 (List.mem_filterMap.2 ⟨y, hy, hi⟩),
    fun e he hi => hnone.2 (List.mem_map.2 ⟨e, he, hi⟩)⟩

/-- Who leads has the number of the leader. -/
theorem taskNumber?_of_isLed (hx : r.isLed x = true) : x.taskNumber? = r.leader := by
  cases x with
  | active => exact of_decide_eq_true hx
  | _ => exact absurd hx (by simp [isLed, Member.number?])

/-! ## Nobody plays -/

/-- Nobody has played: the same members take part, and time may have passed. -/
structure Regrouped (r r' : Run σ τ ρ) : Prop where
  subperm : r'.members.Subperm r.members
  /-- Nobody is lost who is the only one with a number. -/
  stays : ∀ i, r.numbers.count i ≤ 1 → ∀ x ∈ r.members, x.taskNumber? = some i → x ∈ r'.members
  shared_eq : r'.shared = r.shared
  endings_eq : r'.endings = r.endings
  tasks_eq : r'.tasks = r.tasks
  now_le : r.stage.now ≤ r'.stage.now

namespace Regrouped

theorem of_perm (h : r'.members.Perm r.members) (hshared : r'.shared = r.shared)
    (hendings : r'.endings = r.endings) (htasks : r'.tasks = r.tasks)
    (hnow : r.stage.now ≤ r'.stage.now) : Regrouped r r' :=
  ⟨h.subperm, fun _ _ _ hx _ => h.mem_iff.2 hx, hshared, hendings, htasks, hnow⟩

theorem count_numbers (h : Regrouped r r') (i : Nat) :
    r'.numbers.count i ≤ r.numbers.count i := by
  obtain ⟨l, hperm, hsub⟩ := h.subperm
  rw [numbers, numbers, h.endings_eq, List.count_append, List.count_append,
    ← (hperm.filterMap _).count_eq i]
  exact Nat.add_le_add_right ((hsub.filterMap _).count_le i) _

theorem trans (h : Regrouped r r') (h' : Regrouped r' q) : Regrouped r q where
  subperm := h'.subperm.trans h.subperm
  stays i hone x hx hi :=
    h'.stays i (Nat.le_trans (h.count_numbers i) hone) x (h.stays i hone x hx hi) hi
  shared_eq := h'.shared_eq.trans h.shared_eq
  endings_eq := h'.endings_eq.trans h.endings_eq
  tasks_eq := h'.tasks_eq.trans h.tasks_eq
  now_le := Nat.le_trans h.now_le h'.now_le

theorem gather (m : Machine σ τ ρ) (r : Run σ τ ρ) : Regrouped r (r.gather m) :=
  .of_perm (members_gather m r) rfl rfl rfl (Nat.le_refl _)

theorem blocked (ht : r.turn = some x) :
    Regrouped r { r with turn := none, line := r.line ++ [x] } :=
  .of_perm (members_blocked ht) rfl rfl rfl (Nat.le_refl _)

theorem called {ready : List (Member τ)} (ht : r.turn = none)
    (hready : (r.gather m).ready = x :: ready) :
    Regrouped r { r.gather m with turn := some x, ready } :=
  .of_perm (members_called ht hready) rfl rfl rfl (Nat.le_refl _)

/-- The leader is called.  Nobody else has its number, if each number is given once. -/
theorem callLeader (ht : r.turn = none) (h : r.callLeader m = some r') : Regrouped r r' := by
  have hsub := members_callLeader h ht
  obtain ⟨x, hx, hled, rfl⟩ := callLeader_eq_some h
  refine ⟨hsub, fun i hone y hy hi => ?_, rfl, rfl, rfl, Nat.le_refl _⟩
  rw [members_of_turn rfl]
  by_cases hyled : r.isLed y = true
  · have hxi : x.taskNumber? = some i := by
      rw [taskNumber?_of_isLed hled, ← taskNumber?_of_isLed hyled, hi]
    have hmem : x ∈ r.members := mem_members_of_others (List.mem_append_right _ hx)
    exact unique_of_mem hone hmem hxi hy hi ▸ List.mem_cons_self
  · rw [members_of_none ht, List.mem_append] at hy
    refine List.mem_cons_of_mem x (List.mem_append.2 (hy.imp_right fun hline => ?_))
    exact List.mem_filter.2 ⟨hline, by simpa using hyled⟩

theorem jump (ht : r.turn = none) (h : r.jump m = some r') : Regrouped r r' := by
  obtain ⟨t, hnext, rfl⟩ := Option.map_eq_some_iff.1 h
  let q : Run σ τ ρ := { r with stage := r.stage.moveTo t }
  have hlater : Regrouped r q :=
    .of_perm (.refl _) rfl rfl rfl (Nat.le_of_lt (nextTime_eq_some.1 hnext).1.1)
  have hgathered : Regrouped r (q.gather m) := hlater.trans (gather m q)
  show Regrouped r (((q.gather m).callLeader m).getD (q.gather m))
  cases hled : (q.gather m).callLeader m with
  | none => exact hgathered
  | some q' => exact hgathered.trans (callLeader ht hled)

end Regrouped

/-! ## The two things that a step can be -/

/-- One step of a rehearsal. -/
inductive Moves (m : Machine σ τ ρ) (r : Run σ τ ρ) : Run σ τ ρ → Prop where
  /-- The member that has the turn plays. -/
  | played {x : Member τ} {r' : Run σ τ ρ} (ht : r.turn = some x) (hp : r.play m x = some r') :
    Moves m r r'
  /-- Nobody has the turn who can go on. -/
  | regrouped {r' : Run σ τ ρ} (hself : ∀ x, r.turn = some x → r.isAble m x = false)
    (h : Regrouped r r') : Moves m r r'

theorem advance_of_nobody (ht : r.turn = none) (hover : r.isOver = false)
    (hready : (r.gather m).ready = []) :
    r.advance m = ((r.gather m).callLeader m <|> (r.gather m).jump m) := by
  rw [advance.eq_def]
  simp [ht, hover, hready]

theorem moves_of_advance (h : r.advance m = some r') : r.Moves m r' := by
  cases ht : r.turn with
  | some x =>
    rw [advance_of_turn ht] at h
    obtain rfl := Option.some_inj.1 h
    cases hp : r.play m x with
    | some q => exact .played ht hp
    | none =>
      refine .regrouped (fun y hy => ?_) (.blocked ht)
      obtain rfl := Option.some_inj.1 (ht.symm.trans hy)
      rw [isAble, hp]
      rfl
  | none =>
    refine .regrouped (fun x hx => absurd (ht.symm.trans hx) (by simp)) ?_
    cases hover : r.isOver with
    | true =>
      rw [advance_of_isOver hover] at h
      exact absurd h (by simp)
    | false =>
      cases hready : (r.gather m).ready with
      | cons x ready =>
        rw [advance_called ht hover hready] at h
        obtain rfl := Option.some_inj.1 h
        exact .called ht hready
      | nil =>
        rw [advance_of_nobody ht hover hready] at h
        refine (Regrouped.gather m r).trans ?_
        cases hled : (r.gather m).callLeader m with
        | some q =>
          rw [hled] at h
          obtain rfl := Option.some_inj.1 h
          exact .callLeader ht hled
        | none =>
          rw [hled] at h
          exact .jump ht h

/-- No step gives a number to one more task. -/
theorem Moves.count_numbers (h : r.Moves m r') (i : Nat) :
    r'.numbers.count i ≤ r.numbers.count i := by
  cases h with
  | played ht hp =>
    rcases numbers_cases_of_play ht hp with ⟨-, hperm⟩ | ⟨-, hsub⟩
    · exact Nat.le_of_eq (hperm.count_eq i)
    · exact hsub.count_le i
  | regrouped _ h => exact h.count_numbers i

/-! ### What is shared, and how tasks have ended -/

theorem Moves.shared {I : σ → Prop} (hI : m.Keeps I) (ha : r.Moves m r')
    (h : I r.shared) : I r'.shared := by
  cases ha with
  | played ht hp =>
    cases played_of_play hp with
    | goesOn hstep hs => exact hI _ _ _ _ hstep h
    | ends hstep hs => exact hI _ _ _ _ hstep h
    | started => exact h
    | lost => exact h
    | waits => exact h
    | cancels => exact h
  | regrouped _ h' => exact h'.shared_eq.symm ▸ h

/-- Only a task that has started changes what is shared. -/
theorem Moves.shared_eq (ha : r.Moves m r')
    (hself : ∀ me context a, r.turn = some (.active me context a) →
      r.isAble m (.active me context a) = false) : r'.shared = r.shared := by
  cases ha with
  | played ht hp =>
    cases played_of_play hp with
    | goesOn => exact absurd (isAble_of_play hp) (by simp [hself _ _ _ ht])
    | ends => exact absurd (isAble_of_play hp) (by simp [hself _ _ _ ht])
    | started => rfl
    | lost => rfl
    | waits => rfl
    | cancels => rfl
  | regrouped _ h' => exact h'.shared_eq

/-- Who has ended stays so. -/
theorem Moves.mem_endings {e : Ending ρ} (ha : r.Moves m r') (he : e ∈ r.endings) :
    e ∈ r'.endings := by
  cases ha with
  | played ht hp =>
    cases played_of_play hp with
    | ends => exact List.mem_append_left _ he
    | started => exact he
    | lost => exact he
    | goesOn => exact he
    | waits => exact he
    | cancels => exact he
  | regrouped _ h' => exact h'.endings_eq.symm ▸ he

theorem mem_endings_settle {e : Ending ρ} (he : e ∈ r.endings) (fuel : Nat) :
    e ∈ (r.settle m fuel).endings := by
  induction fuel generalizing r with
  | zero => exact he
  | succ fuel ih =>
    rw [Run.settle]
    cases hr : r.advance m with
    | none => exact he
    | some r' => exact ih ((moves_of_advance hr).mem_endings he)

/-! ## What holds of one task -/

/-- What holds of the bodies that a task has and of how it has ended. -/
structure Holds (i : Nat) (P : τ → Prop) (Q : Ending ρ → Prop) (r : Run σ τ ρ) : Prop where
  bodies : ∀ x ∈ r.members, x.taskNumber? = some i → ∀ a, x.body? = some a → P a
  endings : ∀ e ∈ r.endings, e.me = i → Q e

/-- What a machine keeps of one of its tasks. -/
def Upholds (m : Machine σ τ ρ) (P : τ → Prop) (Q : Ending ρ → Prop) : Prop :=
  ∀ g s a p, P a → m.step g s a = some p →
    (∀ a', p.state = .inl a' → P a') ∧
      ∀ result, p.state = .inr result → Q ⟨g.me, result, g.now, g.context⟩

namespace Holds

variable {P : τ → Prop} {Q : Ending ρ → Prop}

theorem play (hm : Upholds m P Q) (h : Holds i P Q r) (ht : r.turn = some x)
    (hp : r.play m x = some r') : Holds i P Q r' := by
  have hself := h.bodies x (mem_members_of_turn ht)
  have hothers : ∀ y ∈ r.ready ++ r.line, y.taskNumber? = some i → ∀ a, y.body? = some a → P a :=
    fun y hy => h.bodies y (mem_members_of_others hy)
  cases played_of_play hp with
  | started =>
    refine ⟨fun y hy => ?_, h.endings⟩
    rcases mem_members_started hy with rfl | ⟨span, rfl⟩ | hy
    · exact hself
    · simp [Member.taskNumber?]
    · exact hothers y hy
  | lost => exact ⟨hothers, h.endings⟩
  | goesOn hstep hs =>
    refine ⟨fun y hy hi => ?_, h.endings⟩
    rcases List.mem_cons.1 hy with rfl | hy
    · rintro a ⟨⟩
      exact (hm _ _ _ _ (hself hi _ rfl) hstep).1 _ hs
    · exact hothers y hy hi
  | ends hstep hs =>
    refine ⟨hothers, fun e he hi => ?_⟩
    rcases List.mem_append.1 he with he | he
    · exact h.endings e he hi
    · obtain rfl := List.mem_singleton.1 he
      exact (hm _ _ _ _ (hself (congrArg some hi) _ rfl) hstep).2 _ hs
  | waits =>
    refine ⟨fun y hy => ?_, h.endings⟩
    rw [members_of_none rfl, ← List.append_assoc, List.mem_append, List.mem_singleton] at hy
    rcases hy with hy | rfl
    · exact hothers y hy
    · simp [Member.taskNumber?]
  | cancels => exact ⟨hothers, h.endings⟩

theorem advance (hm : Upholds m P Q) (h : Holds i P Q r) (ha : r.Moves m r') :
    Holds i P Q r' := by
  cases ha with
  | played ht hp => exact h.play hm ht hp
  | regrouped _ h' =>
    exact ⟨fun x hx => h.bodies x (h'.subperm.subset hx),
      fun e he => h.endings e (h'.endings_eq ▸ he)⟩

/-- **What one step keeps of a task, a whole rehearsal keeps.** -/
theorem settle (hm : Upholds m P Q) (h : Holds i P Q r) (fuel : Nat) :
    Holds i P Q (r.settle m fuel) := by
  induction fuel generalizing r with
  | zero => exact h
  | succ fuel ih =>
    rw [Run.settle]
    cases hr : r.advance m with
    | none => exact h
    | some r' => exact ih (h.advance hm (moves_of_advance hr))

end Holds

/-! ## Where a task stands -/

/-- The task of a number takes part, and this is what it does. -/
def Runs (i : Nat) (a : τ) (r : Run σ τ ρ) : Prop :=
  ∃ x ∈ r.members, x.taskNumber? = some i ∧ x.body? = some a

/-- A task that takes part has not ended. -/
theorem Runs.not_ended (h : r.Runs i a) (hone : r.numbers.count i ≤ 1) :
    ∀ e ∈ r.endings, e.me ≠ i := by
  obtain ⟨x, hx, hi, -⟩ := h
  rintro e he rfl
  have hmember : 0 < (r.members.filterMap (·.taskNumber?)).count e.me :=
    List.count_pos_iff.2 (List.mem_filterMap.2 ⟨x, hx, hi⟩)
  have hending : 0 < (r.endings.map (·.me)).count e.me :=
    List.count_pos_iff.2 (List.mem_map_of_mem he)
  rw [numbers, List.count_append] at hone
  omega

/-- Whoever has no turn still takes part after it. -/
theorem mem_members_of_play (hp : r.play m x = some r') (hy : y ∈ r.ready ++ r.line) :
    y ∈ r'.members := by
  have hstays (q : Run σ τ ρ) (hready : q.ready = r.ready) (hline : q.line = r.line) :
      y ∈ q.members := mem_members_of_others (by rwa [hready, hline])
  cases played_of_play hp with
  | started =>
    refine mem_members_of_others ?_
    simp only [started, List.mem_append] at hy ⊢
    exact hy.imp_left .inl
  | waits =>
    refine mem_members_of_others ?_
    rw [← List.append_assoc]
    exact List.mem_append_left _ hy
  | lost => exact hstays _ rfl rfl
  | goesOn => exact hstays _ rfl rfl
  | ends => exact hstays _ rfl rfl
  | cancels => exact hstays _ rfl rfl

/-- A task that takes part has one body. -/
theorem Runs.body_of_mem (h : r.Runs i a) (hone : r.numbers.count i ≤ 1) (hx : x ∈ r.members)
    (hi : x.taskNumber? = some i) : x.body? = some a := by
  obtain ⟨y, hy, hyi, hbody⟩ := h
  exact unique_of_mem hone hx hi hy hyi ▸ hbody

/-- A task keeps its body until its own turn.  It is lost if its deadline lies beyond the clock. -/
theorem Runs.advance (h : r.Runs i a) (hone : r.numbers.count i ≤ 1) (ha : r.Moves m r') :
    (∃ context, r.turn = some (.active i context a) ∧
        r.isAble m (.active i context a) = true) ∨
      r'.Runs i a ∨ i ∉ r'.numbers := by
  obtain ⟨y, hy, hi, hbody⟩ := h
  cases ha with
  | regrouped _ h' => exact .inr (.inl ⟨y, h'.stays i hone y hy hi, hi, hbody⟩)
  | @played x _ ht hp =>
    rw [members_of_turn ht, List.mem_cons] at hy
    rcases hy with rfl | hy
    · cases played_of_play hp with
      | started => exact .inr (.inl ⟨_, mem_members_of_turn rfl, hi, hbody⟩)
      | lost =>
        obtain ⟨hothers, hendings⟩ := unique_of_turn hone ht hi
        refine .inr (.inr fun hlost => ?_)
        rw [numbers, members_of_none rfl, List.mem_append, List.mem_filterMap, List.mem_map]
          at hlost
        rcases hlost with ⟨z, hz, hzi⟩ | ⟨e, he, hei⟩
        · exact hothers z hz hzi
        · exact hendings e he hei
      | goesOn =>
        obtain rfl := Option.some_inj.1 hi
        obtain rfl := Option.some_inj.1 hbody
        exact .inl ⟨_, ht, isAble_of_play hp⟩
      | ends =>
        obtain rfl := Option.some_inj.1 hi
        obtain rfl := Option.some_inj.1 hbody
        exact .inl ⟨_, ht, isAble_of_play hp⟩
      | waits => exact absurd hi (by simp [Member.taskNumber?])
      | cancels hx => exact absurd hi (by simp [Member.taskNumber?_of_isTask hx])
    · exact .inr (.inl ⟨y, mem_members_of_play hp hy, hi, hbody⟩)

end Run

end DriveDelta
