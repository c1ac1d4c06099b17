import DriveDelta.Proofs.Rehearsal.Following
import Mathlib.Data.List.Induction

/-!
# Launching a part

Tasks that are launched together stand in the line by the time of their start, and those that start
at the same time in the order of their numbers.  Without some of them the others stand in the same
order, so the tasks of a part, launched alone, are at the beginning what they are in the whole.

## What is here

* `List.filter_mergeSort`: filtering commutes with sorting by a key, which is stable;
* `Choice.among`, the tasks of a list that are kept;
* `Run.FollowedBy.launch`: a part that is launched alone follows the whole;
* `Run.exists_settle_part`: it gets as far as the whole does.
-/

set_option autoImplicit false

namespace DriveDelta

/-! ## Sorting by a key -/

namespace List

variable {α : Type} {key pos : α → Nat} {l : List α}

/-- Sorting by a key keeps the order of those that have the same one. -/
theorem filter_key_mergeSort (key : α → Nat) (l : List α) (v : Nat) :
    (l.mergeSort (key · ≤ key ·)).filter (key · = v) = l.filter (key · = v) := by
  have hsame : (l.filter (key · = v)).Pairwise fun a b => decide (key a ≤ key b) = true := by
    refine List.pairwise_of_forall_mem_list fun a ha b hb => ?_
    simp only [List.mem_filter, decide_eq_true_eq] at ha hb ⊢
    exact Nat.le_of_eq (ha.2.trans hb.2.symm)
  have hsub : (l.filter (key · = v)).Sublist (l.mergeSort (key · ≤ key ·)) :=
    List.sublist_mergeSort (by simpa using fun _ _ _ => Nat.le_trans)
      (by simpa using fun _ _ => Nat.le_total _ _) hsame List.filter_sublist
  have hfilter := hsub.filter (key · = v)
  rw [List.filter_filter, List.filter_congr fun a _ => Bool.and_self _] at hfilter
  refine (hfilter.eq_of_length ?_).symm
  exact ((List.mergeSort_perm l _).filter _).length_eq.symm

/-- Sorted by a key, and by their places where the keys are the same. -/
theorem pairwise_key_mergeSort (hl : l.Pairwise (pos · < pos ·)) :
    (l.mergeSort (key · ≤ key ·)).Pairwise fun a b =>
      key a < key b ∨ key a = key b ∧ pos a < pos b := by
  have hsorted : (l.mergeSort (key · ≤ key ·)).Pairwise fun a b => decide (key a ≤ key b) = true :=
    List.pairwise_mergeSort (by simpa using fun _ _ _ => Nat.le_trans)
      (by simpa using fun _ _ => Nat.le_total _ _) l
  rw [List.pairwise_iff_forall_sublist] at hsorted hl ⊢
  intro a b hab
  have hle : key a ≤ key b := by simpa using hsorted hab
  rcases Nat.lt_or_eq_of_le hle with hlt | heq
  · exact .inl hlt
  · refine .inr ⟨heq, hl (a := a) (b := b) ?_⟩
    have hclass := hab.filter (key · = key b)
    rw [filter_key_mergeSort] at hclass
    simp only [List.filter_cons, heq, decide_true, if_true, List.filter_nil] at hclass
    exact hclass.trans List.filter_sublist

/-- Filtering commutes with sorting by a key. -/
theorem filter_mergeSort (hl : l.Pairwise (pos · < pos ·)) (p : α → Bool) :
    (l.mergeSort (key · ≤ key ·)).filter p = (l.filter p).mergeSort (key · ≤ key ·) := by
  refine List.Perm.eq_of_pairwise (fun a b _ _ hab hba => ?_)
    ((pairwise_key_mergeSort hl).filter p) (pairwise_key_mergeSort (hl.filter p)) ?_
  · exact absurd hab (by omega)
  · exact ((List.mergeSort_perm l _).filter p).trans (List.mergeSort_perm _ _).symm

/-- Sorting commutes with a map that leaves the keys. -/
theorem map_mergeSort_of_key {β : Type} {f : α → β} {k : β → Nat} (h : ∀ a, k (f a) = key a)
    (l : List α) : (l.map f).mergeSort (k · ≤ k ·) = (l.mergeSort (key · ≤ key ·)).map f :=
  (List.map_mergeSort fun a _ b _ => by rw [h, h]).symm

/-- The places of those that pass a filter, among themselves. -/
theorem zipIdx_filter {β : Type} (p : β → Bool) (l : List β) :
    (l.filter p).zipIdx =
      (l.zipIdx.filter (p ·.1)).map fun t => (t.1, (l.take t.2).countP p) := by
  induction l using List.reverseRecOn with
  | nil => rfl
  | append_singleton l a ih =>
    have hmap : (l.zipIdx.filter (p ·.1)).map (fun t => (t.1, ((l ++ [a]).take t.2).countP p)) =
        (l.zipIdx.filter (p ·.1)).map fun t => (t.1, (l.take t.2).countP p) := by
      refine List.map_congr_left fun t ht => ?_
      have hlt : t.2 < l.length := by
        simpa using List.snd_lt_add_of_mem_zipIdx (List.mem_of_mem_filter ht)
      rw [List.take_append_of_le_length (Nat.le_of_lt hlt)]
    rw [List.filter_append, List.zipIdx_append, List.zipIdx_append, List.filter_append,
      List.map_append, hmap, ← ih]
    congr 1
    cases ha : p a with
    | false => simp [ha]
    | true => simp [ha, List.countP_eq_length_filter]

end List

/-! ## Tasks that are launched -/

/-- The tasks of a list that are kept, by their places in it. -/
def Choice.among {β : Type} (tasks : List β) (keep : β → Bool) : Choice where
  keep i := (tasks[i]?.map keep).getD false
  rank i := (tasks.take i).countP keep

theorem Choice.keep_among {β : Type} {tasks : List β} {keep : β → Bool} {t : β × Nat}
    (ht : t ∈ tasks.zipIdx) : (among tasks keep).keep t.2 = keep t.1 := by
  simp [among, List.mem_zipIdx_iff_getElem?.1 ht]

namespace Run

variable {σ τ ρ ω : Type} {m : Machine σ τ ρ}

/-- The line of tasks that are launched. -/
theorem line_launch (shared : σ) (tasks : List (Nat × Recipe × τ)) :
    (Run.launch { shared } tasks : Run σ τ ρ).line =
      (tasks.zipIdx.mergeSort (·.1.1 ≤ ·.1.1)).map fun t =>
        .later t.2 t.1.1 t.1.2.1 t.1.2.2 := by
  simp [launch]

/-- The launch of tasks that are in the order of their starts. -/
theorem launch_of_pairwise {r : Run σ τ ρ} {tasks : List (Nat × Recipe × τ)}
    (h : (tasks.zipIdx r.tasks).Pairwise fun s t => decide (s.1.1 ≤ t.1.1) = true) :
    r.launch tasks = { r with
      tasks := r.tasks + tasks.length
      leader := none
      line := r.line ++ (tasks.zipIdx r.tasks).map fun t =>
        .later t.2 (r.stage.now + t.1.1) t.1.2.1 t.1.2.2 } := by
  rw [launch, List.mergeSort_of_pairwise h]

theorem numbers_launch (shared : σ) (tasks : List (Nat × Recipe × τ)) :
    (Run.launch { shared } tasks : Run σ τ ρ).numbers.Perm (List.range tasks.length) := by
  have hnumbers : (Run.launch { shared } tasks : Run σ τ ρ).numbers =
      (Run.launch { shared } tasks : Run σ τ ρ).line.filterMap (·.taskNumber?) :=
    List.append_nil _
  rw [hnumbers, line_launch, List.filterMap_map]
  refine (List.Perm.filterMap _ (List.mergeSort_perm _ _)).trans (List.Perm.of_eq ?_)
  rw [List.range_eq_range', ← List.zipIdx_map_snd 0 tasks, ← List.filterMap_eq_map]
  rfl

/-- The line of the kept tasks is that of their launch. -/
theorem line_launch_filter (shared shared' : σ) (tasks : List (Nat × Recipe × τ))
    (keep : Nat × Recipe × τ → Bool) (g : Links) :
    (Run.launch { shared := shared' } (tasks.filter keep) : Run σ τ ρ).line =
      (Run.launch { shared } tasks : Run σ τ ρ).line.filterMap
        (·.image (.among tasks keep) g) := by
  have hpos : tasks.zipIdx.Pairwise (·.2 < ·.2) := by
    have hrange : (tasks.zipIdx.map (·.2)).Pairwise (· < ·) := by
      rw [show (fun t : (Nat × Recipe × τ) × Nat => t.2) = Prod.snd from rfl,
        List.zipIdx_map_snd]
      exact List.pairwise_lt_range'
    exact List.pairwise_map.1 hrange
  have hfilter : (tasks.zipIdx.mergeSort (·.1.1 ≤ ·.1.1)).filter (keep ·.1) =
      (tasks.zipIdx.filter (keep ·.1)).mergeSort (·.1.1 ≤ ·.1.1) :=
    List.filter_mergeSort hpos (keep ·.1)
  have hplace : ((tasks.filter keep).zipIdx).mergeSort (·.1.1 ≤ ·.1.1) =
      ((tasks.zipIdx.filter (keep ·.1)).mergeSort (·.1.1 ≤ ·.1.1)).map fun t =>
        (t.1, (tasks.take t.2).countP keep) := by
    rw [List.zipIdx_filter keep]
    exact List.map_mergeSort_of_key (fun _ => rfl) _
  rw [line_launch, line_launch, hplace, ← hfilter, List.map_map, List.filterMap_map,
    ← List.filterMap_eq_map, List.filterMap_filter]
  refine List.filterMap_congr fun t ht => ?_
  have hkeep : (Choice.among tasks keep).keep t.2 = keep t.1 :=
    Choice.keep_among (List.mem_mergeSort.1 ht)
  simp only [Function.comp, Member.image, hkeep]
  rfl

/-- Whether a task that is to be launched shares a part. -/
def shares (P : Part m ω) (t : Nat × Recipe × τ) : Bool := P.own (Stage.options t.2.1) t.2.2

/-- A part that is launched alone follows the whole. -/
theorem FollowedBy.launch (P : Part m ω) {shared : σ} (hinv : P.inv shared)
    (tasks : List (Nat × Recipe × τ)) :
    FollowedBy P (.among tasks (shares P)) (Run.launch { shared } tasks)
      (Run.launch { shared } (tasks.filter (shares P))) := by
  have hlater : ∀ x ∈ (Run.launch { shared } tasks : Run σ τ ρ).members,
      ∃ t ∈ tasks.zipIdx, x = .later t.2 t.1.1 t.1.2.1 t.1.2.2 := by
    intro x hx
    have hline : x ∈ (Run.launch { shared } tasks : Run σ τ ρ).line := hx
    rw [line_launch, List.mem_map] at hline
    obtain ⟨t, ht, rfl⟩ := hline
    exact ⟨t, List.mem_mergeSort.1 ht, rfl⟩
  have hlinked : Linked (fun _ => none) {} {} := by
    refine ⟨?_, ?_, ?_, ?_, ?_⟩ <;> simp [Forest.Flat]
  have haligned : Nanos.tick 0 = 0 := by decide
  refine of_together (g := fun _ => none) ?_ rfl haligned rfl
  exact {
    unled_left := rfl
    unled_right := rfl
    inv_left := hinv
    inv_right := hinv
    view_eq := rfl
    linked := hlinked
    token_lt := fun x hx => by
      obtain ⟨t, ht, rfl⟩ := hlater x hx
      simp [Member.token?]
    fits := fun x hx => by
      obtain ⟨t, ht, rfl⟩ := hlater x hx
      have hkeep : (Choice.among tasks (shares P)).keep t.2 = shares P t.1 :=
        Choice.keep_among ht
      exact hkeep.symm
    turn_eq := rfl
    ready_eq := rfl
    line_eq := line_launch_filter shared shared tasks (shares P) _
    endings_eq := rfl }

/-- **The tasks of a part do without the others what they do with them.**  However far the whole
gets, the part alone gets as far, in no more steps: the same of its tasks have ended, with the same
results and at the same times, and the part of what is shared is the same.  When the whole is over,
so is the part. -/
theorem exists_settle_part (P : Part m ω) {shared : σ} (hinv : P.inv shared)
    (tasks : List (Nat × Recipe × τ)) (fuel : Nat) :
    ∃ fuel' ≤ fuel,
      let r := (Run.launch { shared } tasks : Run σ τ ρ).settle m fuel
      let q := (Run.launch { shared } (tasks.filter (shares P)) : Run σ τ ρ).settle m fuel'
      let ch := Choice.among tasks (shares P)
      told id q.endings = told ch.rank (r.endings.filter (ch.keep ·.me)) ∧
        P.view q.shared = P.view r.shared ∧ (r.isOver = true → q.isOver = true) := by
  obtain ⟨fuel', hle, h⟩ := (FollowedBy.launch P hinv tasks).settle fuel
  exact ⟨fuel', hle, h.endings_eq, h.view_eq, h.isOver⟩

end Run

end DriveDelta
