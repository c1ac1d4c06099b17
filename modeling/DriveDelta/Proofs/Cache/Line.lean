import DriveDelta.Proofs.Cache.Session

/-!
# The line of refreshers

In every session the line of refreshers holds exactly the visits that want to refresh or do so, and
the one that does is first.  The line is served in the order in which its members came, and that is
what makes counting outcomes enough: whoever is still in line when a refresh begins has seen as many
of them as there are.

## What is here

* `Queue.Serves`, which says that a line and the wants of all visits agree, with
  `Queue.Serves.join` and `Queue.Serves.leave`;
* `Visit.Orderly`, the invariant of the line, and one lemma for each thing that can happen to it:
  `Orderly.join`, `Orderly.begin`, `Orderly.stay`, `Orderly.leave`, `Orderly.away` and
  `Orderly.share`.
-/

set_option autoImplicit false

namespace DriveDelta

/-! ## Lines and wants -/

namespace Queue

/-- The line holds everybody who wants something once, with what they want, and nobody else. -/
structure Serves (q : Queue) (want : Nat → Option Access) : Prop where
  nodup : (q.map Prod.fst).Nodup
  mem_iff : ∀ v a, (v, a) ∈ q ↔ want v = some a

variable {q : Queue} {want : Nat → Option Access} {v : Nat} {a : Access}

theorem serves_nil : Serves [] fun _ => none :=
  ⟨List.nodup_nil, by simp⟩

theorem Serves.ne_of_mem (h : q.Serves want) (hv : want v = none) : ∀ x ∈ q, x.1 ≠ v := by
  rintro ⟨w, b⟩ hx rfl
  have := (h.mem_iff _ _).1 hx
  rw [hv] at this
  exact absurd this (by simp)

theorem Serves.join (h : q.Serves want) (hv : want v = none) :
    (q.join v a).Serves (Function.update want v (some a)) := by
  constructor
  · rw [Queue.join, List.map_append, List.nodup_append]
    refine ⟨h.nodup, by simp, ?_⟩
    rintro x hx y hy rfl
    obtain ⟨e, he, rfl⟩ := List.mem_map.1 hx
    exact h.ne_of_mem hv e he (by simpa using hy)
  · intro w b
    rw [mem_join, h.mem_iff]
    by_cases hw : w = v
    · subst hw
      simp [hv, eq_comm]
    · simp [hw]

theorem Serves.leave (h : q.Serves want) :
    (q.leave v).Serves (Function.update want v none) := by
  constructor
  · exact h.nodup.sublist (List.filter_sublist.map _)
  · intro w b
    rw [mem_leave, h.mem_iff]
    by_cases hw : w = v
    · subst hw
      simp
    · simp [hw]

/-- Who wants to write has the lock only when first in line. -/
theorem Serves.head?_of_holds (h : q.Serves want) (hw : want v = some .write)
    (hl : q.holds v = true) : q.head? = some (v, .write) := by
  rcases holds_iff.1 hl with hh | ⟨before, after, rfl, -⟩
  · exact hh
  · have := (h.mem_iff v .read).1 (by simp)
    rw [hw] at this
    exact absurd this (by simp)

theorem head?_join {x : Nat × Access} (h : q.head? = some x) : (q.join v a).head? = some x := by
  rw [Queue.join, List.head?_append, h]
  rfl

theorem head?_leave {x : Nat × Access} (h : q.head? = some x) (hx : x.1 ≠ v) :
    (q.leave v).head? = some x := by
  obtain ⟨rest, rfl⟩ := List.head?_eq_some_iff.1 h
  rw [Queue.leave, List.filter_cons_of_pos (by simpa using hx)]
  rfl

end Queue

/-! ## The invariant of the line -/

namespace Visit

/-- What a visit wants from the line of refreshers. -/
def Phase.refreshAccess : Phase → Option Access
  | .queued _ | .refreshing _ _ => some .write
  | .arriving | .reading | .finished _ => none

theorem Phase.Settled.refreshAccess {phase : Phase} (h : phase.Settled) :
    phase.refreshAccess = none := by
  rcases h with rfl | ⟨answer, rfl⟩ <;> rfl

/-- What visits in line have seen, where `n` outcomes have been shared so far. -/
structure Counted (line : Queue) (n : Nat) (phase : Nat → Phase) : Prop where
  seen_le : ∀ v seen, phase v = .queued seen → seen ≤ n
  /-- Nobody in line has missed more than one outcome. -/
  recent : ∀ v seen, phase v = .queued seen → n ≤ seen + 1
  /-- Who came later has seen no fewer outcomes. -/
  fifo : line.Pairwise fun x y =>
    ∀ m k, phase x.1 = .queued m → phase y.1 = .queued k → m ≤ k

/-- The line of refreshers agrees with where the visits stand. -/
structure Orderly (line : Queue) (n : Nat) (phase : Nat → Phase) : Prop
    extends Counted line n phase where
  serves : line.Serves fun v => (phase v).refreshAccess
  /-- Who refreshes is first in line. -/
  head : ∀ v since stage, phase v = .refreshing since stage → line.head? = some (v, .write)
  /-- While somebody refreshes, those in line have seen all outcomes. -/
  current : ∀ v since stage, phase v = .refreshing since stage →
    ∀ w seen, phase w = .queued seen → seen = n

theorem refreshAccess_update (phase : Nat → Phase) (v : Nat) (ph : Phase) :
    (fun w => (Function.update phase v ph w).refreshAccess)
      = Function.update (fun w => (phase w).refreshAccess) v ph.refreshAccess :=
  Function.comp_update Phase.refreshAccess phase v ph

theorem orderly_start : Orderly [] 0 fun _ => .arriving :=
  ⟨⟨by simp, by simp, List.Pairwise.nil⟩, Queue.serves_nil, by simp, by simp⟩

variable {line : Queue} {n : Nat} {phase : Nat → Phase} {v : Nat} {ph : Phase}

/-- Where `v` has moved to a phase outside the line, the others in line are those of before. -/
theorem queued_of_update (hph : ∀ seen, ph ≠ .queued seen) {w seen : Nat}
    (hw : Function.update phase v ph w = .queued seen) : w ≠ v ∧ phase w = .queued seen := by
  rcases eq_or_ne w v with rfl | hne
  · rw [Function.update_self] at hw
    exact absurd hw (hph seen)
  · exact ⟨hne, by rwa [Function.update_of_ne hne] at hw⟩

theorem refreshing_of_update (hph : ∀ since stage, ph ≠ .refreshing since stage) {w since : Nat}
    {stage : Refresh.Stage} (hw : Function.update phase v ph w = .refreshing since stage) :
    w ≠ v ∧ phase w = .refreshing since stage := by
  rcases eq_or_ne w v with rfl | hne
  · rw [Function.update_self] at hw
    exact absurd hw (hph since stage)
  · exact ⟨hne, by rwa [Function.update_of_ne hne] at hw⟩

/-- Fewer visits in line have seen what they had seen. -/
theorem Counted.mono (h : Counted line n phase) {line' : Queue} {phase' : Nat → Phase}
    (hline : line'.Sublist line) (hq : ∀ w seen, phase' w = .queued seen → phase w = .queued seen) :
    Counted line' n phase' where
  seen_le w seen hw := h.seen_le w seen (hq w seen hw)
  recent w seen hw := h.recent w seen (hq w seen hw)
  fifo := (h.fifo.sublist hline).imp fun hxy m k hm hk => hxy m k (hq _ m hm) (hq _ k hk)

namespace Orderly

/-- At most one visit refreshes at a time. -/
theorem refreshing_unique (h : Orderly line n phase) {w since since' : Nat}
    {stage stage' : Refresh.Stage} (hv : phase v = .refreshing since stage)
    (hw : phase w = .refreshing since' stage') : v = w := by
  have h₁ := h.head v since stage hv
  rw [h.head w since' stage' hw] at h₁
  simpa using h₁.symm

/-- A visit joins the line. -/
theorem join (h : Orderly line n phase) (hv : phase v = .arriving) :
    Orderly (line.join v .write) n (Function.update phase v (.queued n)) := by
  have hout : ∀ x ∈ line, x.1 ≠ v := h.serves.ne_of_mem (by rw [hv, Phase.refreshAccess])
  have hq : ∀ w seen, Function.update phase v (.queued n) w = .queued seen →
      seen = n ∨ w ≠ v ∧ phase w = .queued seen := by
    intro w seen hw
    rcases eq_or_ne w v with rfl | hne
    · rw [Function.update_self, Phase.queued.injEq] at hw
      exact .inl hw.symm
    · exact .inr ⟨hne, by rwa [Function.update_of_ne hne] at hw⟩
  refine ⟨⟨fun w seen hw => ?_, fun w seen hw => ?_, ?_⟩, ?_, fun w since stage hw => ?_,
    fun w since stage hw u seen hu => ?_⟩
  · rcases hq w seen hw with rfl | ⟨-, hw⟩
    · exact Nat.le_refl _
    · exact h.seen_le w seen hw
  · rcases hq w seen hw with rfl | ⟨-, hw⟩
    · omega
    · exact h.recent w seen hw
  · rw [Queue.join, List.pairwise_append]
    refine ⟨h.fifo.imp_of_mem fun {x y} hx hy hxy => ?_, List.pairwise_singleton _ _, ?_⟩
    · rwa [Function.update_of_ne (hout x hx), Function.update_of_ne (hout y hy)]
    · intro x hx y hy m k hm hk
      rw [Function.update_of_ne (hout x hx)] at hm
      rw [List.mem_singleton.1 hy, Function.update_self, Phase.queued.injEq] at hk
      exact hk ▸ h.seen_le _ m hm
  · rw [refreshAccess_update]
    exact h.serves.join (by rw [hv, Phase.refreshAccess])
  · exact Queue.head?_join (h.head w since stage (refreshing_of_update (by simp) hw).2)
  · rcases hq u seen hu with rfl | ⟨-, hu⟩
    · rfl
    · exact h.current w since stage (refreshing_of_update (by simp) hw).2 u seen hu

/-- The first in line refreshes, and the others have seen all outcomes. -/
theorem refresh (h : Orderly line n phase) (hh : line.head? = some (v, .write))
    (hc : ∀ w seen, w ≠ v → phase w = .queued seen → seen = n) (since : Nat)
    (stage : Refresh.Stage) :
    Orderly line n (Function.update phase v (.refreshing since stage)) := by
  have hv : (phase v).refreshAccess = some .write :=
    (h.serves.mem_iff v .write).1 (List.mem_of_mem_head? hh)
  refine ⟨h.toCounted.mono (List.Sublist.refl _) fun w seen hw =>
    (queued_of_update (by simp) hw).2, ?_, fun w t st hw => ?_, fun w t st _ u seen hu => ?_⟩
  · rw [refreshAccess_update, Phase.refreshAccess, ← hv, Function.update_eq_self]
    exact h.serves
  · rcases eq_or_ne w v with rfl | hne
    · exact hh
    · rw [Function.update_of_ne hne] at hw
      exact h.head w t st hw
  · obtain ⟨hne, hu⟩ := queued_of_update (by simp) hu
    exact hc u seen hne hu

/-- The first in line, having seen all outcomes, begins a refresh. -/
theorem begin (h : Orderly line n phase) (hv : phase v = .queued n) (hl : line.holds v = true)
    (since : Nat) (stage : Refresh.Stage) :
    Orderly line n (Function.update phase v (.refreshing since stage)) := by
  have hh := h.serves.head?_of_holds (by simp [hv, Phase.refreshAccess]) hl
  refine h.refresh hh (fun w seen hne hw => ?_) since stage
  -- whoever else is in line came after `v`
  have hmem : (w, .write) ∈ line := (h.serves.mem_iff w .write).2 (by rw [hw, Phase.refreshAccess])
  obtain ⟨rest, rfl⟩ := List.head?_eq_some_iff.1 hh
  have hrest : (w, Access.write) ∈ rest := (List.mem_cons.1 hmem).resolve_left (by simp [hne])
  have hle : n ≤ seen := (List.pairwise_cons.1 h.fifo).1 _ hrest n seen hv hw
  exact Nat.le_antisymm (h.seen_le w seen hw) hle

/-- A refresh goes on. -/
theorem stay (h : Orderly line n phase) {since since' : Nat} {stage stage' : Refresh.Stage}
    (hv : phase v = .refreshing since stage) :
    Orderly line n (Function.update phase v (.refreshing since' stage')) :=
  h.refresh (h.head v since stage hv) (fun w seen _ hw => h.current v since stage hv w seen hw)
    since' stage'

/-- A visit leaves the line for good, or was not in it. -/
theorem leave (h : Orderly line n phase) (hph : ph.refreshAccess = none) :
    Orderly (line.leave v) n (Function.update phase v ph) := by
  have hq : ∀ w seen, Function.update phase v ph w = .queued seen →
      w ≠ v ∧ phase w = .queued seen :=
    fun w seen => queued_of_update (by rintro seen rfl; simp [Phase.refreshAccess] at hph)
  have hr : ∀ w since stage, Function.update phase v ph w = .refreshing since stage →
      w ≠ v ∧ phase w = .refreshing since stage :=
    fun w since stage =>
      refreshing_of_update (by rintro since stage rfl; simp [Phase.refreshAccess] at hph)
  refine ⟨h.toCounted.mono List.filter_sublist fun w seen hw => (hq w seen hw).2, ?_,
    fun w since stage hw => ?_, fun w since stage hw u seen hu => ?_⟩
  · rw [refreshAccess_update, hph]
    exact h.serves.leave
  · obtain ⟨hne, hw⟩ := hr w since stage hw
    exact Queue.head?_leave (h.head w since stage hw) hne
  · exact h.current w since stage (hr w since stage hw).2 u seen (hq u seen hu).2

/-- A visit that is not in line stays away from it. -/
theorem away (h : Orderly line n phase) (hv : (phase v).refreshAccess = none)
    (hph : ph.refreshAccess = none) : Orderly line n (Function.update phase v ph) := by
  have hl := h.leave (v := v) hph
  rwa [Queue.leave_eq_self (h.serves.ne_of_mem hv)] at hl

/-- A refresh ends with an outcome that is shared, and its visit leaves the line. -/
theorem share (h : Orderly line n phase) {since : Nat} {stage : Refresh.Stage}
    (hv : phase v = .refreshing since stage) (hph : ph.refreshAccess = none) :
    Orderly (line.leave v) (n + 1) (Function.update phase v ph) := by
  have hl := h.leave (v := v) hph
  have hq : ∀ w seen, Function.update phase v ph w = .queued seen → seen = n :=
    fun w seen hw => h.current v since stage hv w seen
      (queued_of_update (by rintro seen rfl; simp [Phase.refreshAccess] at hph) hw).2
  refine ⟨⟨fun w seen hw => ?_, fun w seen hw => ?_, hl.fifo⟩, hl.serves, hl.head,
    fun w t st hw => ?_⟩
  · rw [hq w seen hw]
    exact Nat.le_succ n
  · exact Nat.le_of_eq (by rw [hq w seen hw])
  · -- `v` was the only one to refresh
    obtain ⟨hne, hw⟩ := refreshing_of_update
      (by rintro since stage rfl; simp [Phase.refreshAccess] at hph) hw
    exact absurd (h.refreshing_unique hw hv) hne

end Orderly

end Visit

end DriveDelta
