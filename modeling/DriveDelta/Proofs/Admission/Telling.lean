import DriveDelta.Proofs.Admission.Pacing

/-!
# What an adaptive pool tells of its rate

An adaptive pool logs the rate that it asks its pool for, and it asks before the pool applies its
own lowest rate.  So what is told of a step down can differ from what comes of it: the rate that is
told may lie below the lowest one, and once the lowest one is in force every throttled exchange
tells of a step down that does not happen.

This is all that can be wrong with what is told.  The rate is always the one told last, or the
lowest rate of any pool if that is higher.  And whether anything can ever be wrong is decided by the
figures of the pool: it cannot if the floor that is in use is not below the lowest rate, nor if the
ceiling is infinite, for then the rate never changes; in all other pools enough throttled exchanges
bring it about.

## What is here

* `Adaptive.report`, what is told about an observation, and `Adaptive.Reported`, the ways in which
  it can go with what comes of the rate;
* `RateChange.replay`, the rate to which events lead, `RateChange.Truthful`, what it means that one
  of them is true, and `Adaptive.truthful_iff`, when it is;
* `Adaptive.Steady`, the pools whose rate cannot be asked too low, with `Steady.le_slower` and, for
  the others, `Adaptive.exists_slower_lt`;
* `Adaptive.reports`, the events of a history, and `Adaptive.truthful_iff_steady`.
-/

set_option autoImplicit false

namespace DriveDelta

open Number

namespace RateChange

/-- The rate to which events lead from a first one. -/
def replay {α : Type} (rate : α) (events : List (RateChange α)) : α :=
  events.foldl (fun _ e => e.after) rate

theorem replay_append {α : Type} (rate : α) (events events' : List (RateChange α)) :
    replay rate (events ++ events') = replay (replay rate events) events' :=
  List.foldl_append

/-- What is told about a rate, if anything is, is the truth: it changed if and only if something is
told, and then the event has the rate before and after and the direction. -/
structure Truthful (before after : Double) (event : Option (RateChange Double)) : Prop where
  isSome_iff : event.isSome = true ↔ after ≠ before
  before_eq : ∀ e ∈ event, e.before = before
  after_eq : ∀ e ∈ event, e.after = after
  raised_eq : ∀ e ∈ event, e.raised = before.lt after

namespace Truthful

variable {before after : Double}

theorem silent : Truthful before before none := ⟨by simp, by simp, by simp, by simp⟩

/-- A step up is told as it is. -/
theorem raised (h : before.lt after = true) :
    Truthful before after (some ⟨true, before, after⟩) := by
  exact ⟨iff_of_true rfl (Double.ne_of_lt h).symm, by simp, by simp, by simpa using h⟩

/-- A step down is told as it is. -/
theorem lowered (h : after.lt before = true) :
    Truthful before after (some ⟨false, before, after⟩) := by
  refine ⟨iff_of_true rfl (Double.ne_of_lt h), by simp, by simp, ?_⟩
  rintro e ⟨⟩
  exact (Double.not_lt_of_le (Double.le_of_lt h)).symm

/-- The rate that is told truthfully is the one that comes of it. -/
theorem replay_eq {event : Option (RateChange Double)} (h : Truthful before after event) :
    replay before event.toList = after := by
  cases event with
  | none => exact (not_not.1 fun hne => absurd (h.isSome_iff.2 hne) (by simp)).symm
  | some e => exact h.after_eq e rfl

end Truthful

end RateChange

open RateChange (Truthful replay replay_append)

namespace Adaptive

/-! ## One observation -/

section Reports

variable {α : Type} [Number α]

/-- What an adaptive pool tells about an observation. -/
def report (a : Adaptive α) (f : Feedback) (now : Nat) : Option (RateChange α) :=
  match f with
  | .success => (a.recordSuccess now).2
  | .throttled => (a.recordThrottled now).2
  | .neutral => none

/-- The events of some uses, in order. -/
def reports (d : Desk (Adaptive α)) : List (Use Feedback) → List (RateChange α)
  | [] => []
  | u :: us =>
    (u.deed.getRight?.bind (d.kept.report · u.time)).toList ++ reports (keeper.use d u).1 us

/-- What can be told about an observation, with the rate that comes of it. -/
inductive Reported (a : Adaptive α) : Feedback → Option (RateChange α) → α → Prop where
  | lowered (hlt : lt a.slower a.pool.rate = true) :
    Reported a .throttled (some ⟨false, a.pool.rate, a.slower⟩) (larger a.slower Pool.leastRate)
  | raised (hlt : lt a.pool.rate a.faster = true) :
    Reported a .success (some ⟨true, a.pool.rate, a.faster⟩) (larger a.faster Pool.leastRate)
  | silent {f : Feedback} (hlt : f = .throttled → lt a.slower a.pool.rate = false) :
    Reported a f none a.pool.rate

theorem observe_reported (a : Adaptive α) (f : Feedback) (now : Nat) :
    a.Reported f (a.report f now) (a.observe f now).pool.rate := by
  cases f with
  | neutral => exact .silent (by simp)
  | throttled =>
    simp only [report, observe, recordThrottled]
    split
    next hlt => exact .lowered hlt
    next hlt => exact .silent fun _ => by simpa using hlt
  | success =>
    simp only [report, observe, recordSuccess]
    split
    · exact .silent (by simp)
    · split
      next hlt => exact .raised hlt
      next => exact .silent (by simp)

theorem reports_append (d : Desk (Adaptive α)) (us us' : List (Use Feedback)) :
    reports d (us ++ us') = reports d us ++ reports (keeper.after d us) us' := by
  induction us generalizing d with
  | nil => rfl
  | cons u us ih =>
    rw [List.cons_append, reports, reports, ih, List.append_assoc]
    rfl

end Reports

section Truth

variable {a : Adaptive Double} {ceiling floor : Double} {f : Feedback}

/-- A rate that is not below the lowest one is set as it is. -/
theorem larger_leastRate {rate : Double} (h : (Pool.leastRate : Double).le rate = true) :
    larger rate Pool.leastRate = rate := by
  rw [Pool.number_larger, Double.max, if_neg (by simp [(Double.le_iff.1 h).2.1]),
    if_neg (by simp [isNaN_leastRate]), if_neg (by simp [Double.not_lt_of_le h])]

/-- For a rate below the lowest one, that one is set. -/
theorem larger_leastRate_of_lt {rate : Double} (h : rate.lt Pool.leastRate = true) :
    larger rate Pool.leastRate = Pool.leastRate := by
  rw [Pool.number_larger, Double.max, if_neg (by simp [(Double.lt_iff.1 h).1]),
    if_neg (by simp [isNaN_leastRate]), if_pos h]

/-- What comes of the rate is the one told, or the lowest rate of any pool if that is higher. -/
theorem Reported.rate_eq {event : Option (RateChange Double)} {rate : Double}
    (h : a.Reported f event rate) (hle : (Pool.leastRate : Double).le a.pool.rate = true) :
    (∀ e ∈ event, e.before = a.pool.rate) ∧
      rate = larger (replay a.pool.rate event.toList) Pool.leastRate := by
  cases h with
  | lowered => exact ⟨by simp, rfl⟩
  | raised => exact ⟨by simp, rfl⟩
  | silent => exact ⟨by simp, (larger_leastRate hle).symm⟩

/-- **The truth is told unless a rate is asked for that is below the lowest one.** -/
theorem truthful_iff (hle : (Pool.leastRate : Double).le a.pool.rate = true) (f : Feedback)
    (now : Nat) :
    Truthful a.pool.rate (a.observe f now).pool.rate (a.report f now) ↔
      ¬ (f = .throttled ∧ lt a.slower Pool.leastRate = true) := by
  have hreported := a.observe_reported f now
  generalize a.report f now = event at hreported ⊢
  generalize (a.observe f now).pool.rate = rate at hreported ⊢
  cases hreported with
  | lowered hlt =>
    cases hlow : lt a.slower Pool.leastRate with
    | true =>
      refine iff_of_false (fun htruth => ?_) (by simp)
      have heq : a.slower = Pool.leastRate :=
        (htruth.after_eq _ rfl).trans (larger_leastRate_of_lt hlow)
      exact Double.ne_of_lt hlow heq
    | false =>
      rw [larger_leastRate (Double.le_of_not_lt (Double.lt_iff.1 hlt).1 isNaN_leastRate hlow)]
      exact iff_of_true (.lowered hlt) (by simp)
  | raised hlt =>
    rw [larger_leastRate (Double.le_trans hle (Double.le_of_lt hlt))]
    exact iff_of_true (.raised hlt) (by simp)
  | silent hlt =>
    refine iff_of_true .silent ?_
    rintro ⟨rfl, hlow⟩
    exact Bool.false_ne_true ((hlt rfl).symm.trans (Double.lt_of_lt_of_le hlow hle))

/-- What is told of a step below the lowest rate, and what comes of it. -/
theorem report_of_low (hle : (Pool.leastRate : Double).le a.pool.rate = true)
    (hlow : lt a.slower Pool.leastRate = true) (now : Nat) :
    a.report .throttled now = some ⟨false, a.pool.rate, a.slower⟩ ∧
      (a.observe .throttled now).pool.rate = Pool.leastRate := by
  have hlt : lt a.slower a.pool.rate = true := Double.lt_of_lt_of_le hlow hle
  rw [report, observe, recordThrottled, if_pos hlt]
  exact ⟨rfl, larger_leastRate_of_lt hlow⟩

/-! ## Figures that keep the rate from being asked too low -/

/-- The floor in use is not below the lowest rate of any pool, or the ceiling is infinite. -/
def Steady (ceiling floor : Double) : Prop :=
  (Pool.leastRate : Double).le (smaller floor ceiling) = true ∨ ceiling = .infinity

instance (ceiling floor : Double) : Decidable (Steady ceiling floor) :=
  inferInstanceAs (Decidable (_ ∨ _))

/-- What an infinite rate is halved to. -/
theorem half_infinity : Double.infinity / ofNat 2 = .infinity := by decide +kernel

theorem le_infinity {x : Double} (h : x.isNaN = false) : x.le .infinity = true := by
  have hle : x.magnitude ≤ Double.infiniteMagnitude := by simpa [Double.isNaN] using h
  refine Double.le_iff.2 ⟨h, rfl, ?_⟩
  have hrank : Double.infinity.rank = Double.infiniteMagnitude := rfl
  rw [hrank, Double.rank]
  split <;> omega

/-- An infinite rate is not halved. -/
theorem infinity_le_slower (h : a.pool.rate = .infinity) :
    Double.infinity.le a.slower = true := by
  rw [slower, h, half_infinity]
  exact Double.le_max_left rfl

/-- An infinite rate does not change. -/
theorem observe_infinity (h : a.pool.rate = .infinity) (f : Feedback) (now : Nat) :
    (a.observe f now).pool.rate = .infinity := by
  have hreported := a.observe_reported f now
  generalize a.report f now = event at hreported
  generalize (a.observe f now).pool.rate = rate at hreported ⊢
  cases hreported with
  | silent => exact h
  | raised hlt =>
    have hnot := Double.not_lt_of_le (le_infinity (Double.lt_iff.1 hlt).2.1)
    exact absurd (h ▸ hlt) (Bool.eq_false_iff.1 hnot)
  | lowered hlt =>
    have hnot := Double.not_lt_of_le (infinity_le_slower h)
    exact absurd (h ▸ hlt) (Bool.eq_false_iff.1 hnot)

/-- A pool with such figures asks for no rate below the lowest one. -/
theorem Steady.le_slower (h : Steady ceiling floor) (hceiling : ceiling.isNaN = false)
    (hfloor : floor.isNaN = false) (hbanded : a.Banded ceiling floor)
    (hrate : ceiling = .infinity → a.pool.rate = .infinity) :
    (Pool.leastRate : Double).le a.slower = true := by
  rcases h with hleast | hinf
  · have hle : (smaller floor ceiling).le a.slower = true := by
      rw [slower, hbanded.floor_eq]
      exact Double.le_max_right (Double.isNaN_min hfloor hceiling)
    exact Double.le_trans hleast hle
  · exact Double.le_trans (le_infinity isNaN_leastRate) (infinity_le_slower (hrate hinf))

theorem isAmount_of_leastRate_le {x : Double} (h : (Pool.leastRate : Double).le x = true) :
    x.IsAmount ∧ 2 * Double.binade ≤ x.magnitude := by
  have hleast : 2 * Double.binade ≤ (Pool.leastRate : Double).magnitude := by decide +kernel
  have hpos : 0 < 2 * Double.binade := by decide
  obtain ⟨-, hnum, hrank⟩ := Double.le_iff.1 h
  rw [Double.rank, Double.rank, Pool.isAmount_leastRate.nonneg, if_neg (by simp)] at hrank
  have hnonneg : x.negative = false := by
    refine Bool.eq_false_iff.2 fun hneg => ?_
    rw [if_pos hneg] at hrank
    omega
  rw [hnonneg, if_neg (by simp)] at hrank
  exact ⟨⟨hnonneg, by simpa [Double.isNaN] using hnum⟩, by omega⟩

/-- A throttled exchange takes a finite rate down by a binade while the floor is below the lowest
rate and half of the rate is not. -/
theorem rate_of_throttled (hbanded : a.Banded ceiling floor)
    (hlow : (smaller floor ceiling).lt Pool.leastRate = true)
    (hfinite : a.pool.rate.magnitude < Double.infiniteMagnitude)
    (hslower : lt a.slower Pool.leastRate = false) (now : Nat) :
    (a.observe .throttled now).pool.rate = ⟨false, a.pool.rate.magnitude - Double.binade⟩ := by
  obtain ⟨hrate, hlarge⟩ := isAmount_of_leastRate_le hbanded.leastRate_le
  have hhalf : a.pool.rate / ofNat 2 = ⟨false, a.pool.rate.magnitude - Double.binade⟩ :=
    Double.half_eq hrate hfinite hlarge
  have hamount : (⟨false, a.pool.rate.magnitude - Double.binade⟩ : Double).IsAmount :=
    Double.isAmount_nonneg (by omega)
  have heq : a.slower = ⟨false, a.pool.rate.magnitude - Double.binade⟩ := by
    rw [slower, hhalf, hbanded.floor_eq, Pool.number_larger] at hslower ⊢
    rcases Double.max_eq_or ⟨false, a.pool.rate.magnitude - Double.binade⟩ (smaller floor ceiling)
      with heq | heq
    · exact heq
    · rw [heq] at hslower
      exact absurd hlow (Bool.eq_false_iff.1 hslower)
  have hlt : lt a.slower a.pool.rate = true := by
    have hbinade : 0 < Double.binade := by decide
    rw [heq]
    exact (hamount.lt_iff hrate).2 (Nat.sub_lt (by omega) hbinade)
  have hleast : (Pool.leastRate : Double).le a.slower = true :=
    Double.le_of_not_lt (heq ▸ hamount.isNaN) isNaN_leastRate hslower
  rw [observe, recordThrottled, if_pos hlt, ← heq]
  exact larger_leastRate hleast

/-- **Other pools come to ask for a rate below the lowest one.**  Each throttled exchange takes the
rate down by a binade until half of it is below the lowest one. -/
theorem exists_slower_lt {d : Desk (Adaptive Double)} (hceiling : ceiling.isNaN = false)
    (hfloor : floor.isNaN = false) (hbanded : d.kept.Banded ceiling floor)
    (hlow : (smaller floor ceiling).lt Pool.leastRate = true)
    (hfinite : d.kept.pool.rate.magnitude < Double.infiniteMagnitude) :
    ∃ us, lt (keeper.after d us).kept.slower Pool.leastRate = true := by
  induction hm : d.kept.pool.rate.magnitude using Nat.strong_induction_on generalizing d with
  | _ m ih =>
    subst hm
    by_cases hdone : lt d.kept.slower Pool.leastRate = true
    · exact ⟨[], hdone⟩
    · have hslower : lt d.kept.slower Pool.leastRate = false := by simpa using hdone
      have hrate := rate_of_throttled hbanded hlow hfinite hslower 0
      obtain ⟨-, hlarge⟩ := isAmount_of_leastRate_le hbanded.leastRate_le
      have hless : (d.kept.observe .throttled 0).pool.rate.magnitude <
          d.kept.pool.rate.magnitude := by
        have hbinade : 0 < Double.binade := by decide
        rw [hrate]
        exact Nat.sub_lt (by omega) hbinade
      obtain ⟨us, hus⟩ := ih _ hless
        (d := (keeper.use d ⟨0, .inr .throttled⟩).1)
        (hbanded.observed hceiling hfloor (d.kept.observe_observed .throttled 0))
        (hless.trans hfinite) rfl
      exact ⟨⟨0, .inr .throttled⟩ :: us, hus⟩

/-! ## Histories -/

/-- A use of a pool either leaves the rate alone and tells nothing, or it is an observation. -/
theorem use_cases (d : Desk (Adaptive Double)) (u : Use Feedback) :
    ((keeper.use d u).1.kept.pool.rate = d.kept.pool.rate ∧ reports d [u] = []) ∨
      ∃ f, (keeper.use d u).1.kept = d.kept.observe f u.time ∧
        reports d [u] = (d.kept.report f u.time).toList := by
  obtain ⟨time, deed | f⟩ := u
  · exact .inl ⟨(Pool.serve_served _ _ _ _).rate_eq, rfl⟩
  · exact .inr ⟨f, rfl, List.append_nil _⟩

theorem banded_after (hceiling : ceiling.isNaN = false) (hfloor : floor.isNaN = false)
    (capacity recovery start : Nat) (us : List (Use Feedback)) :
    (keeper.after (.new (Adaptive.new capacity ceiling floor recovery start))
      us).kept.Banded ceiling floor := by
  refine after_induction (I := fun _ a => a.Banded ceiling floor) ?_ ?_ ?_ us
  · exact fun _ _ _ h hp => h.put hp
  · exact fun _ a f now h => h.observed hceiling hfloor (a.observe_observed f now)
  · exact .new hceiling capacity recovery start

/-- The rate of a pool with an infinite ceiling is always infinite. -/
theorem rate_infinite (floor : Double) (capacity recovery start : Nat)
    (us : List (Use Feedback)) :
    (keeper.after (.new (Adaptive.new capacity .infinity floor recovery start))
      us).kept.pool.rate = .infinity := by
  refine after_induction (I := fun _ a => a.pool.rate = Double.infinity) ?_ ?_ ?_ us
  · exact fun _ _ _ h hp => hp.trans h
  · exact fun _ _ f now h => observe_infinity h f now
  · exact larger_leastRate (le_infinity isNaN_leastRate)

/-- **The rate is the one told last, or the lowest rate of any pool if that is higher.** -/
theorem rate_eq_replay {d : Desk (Adaptive Double)}
    (hle : ∀ us, (Pool.leastRate : Double).le (keeper.after d us).kept.pool.rate = true)
    (us : List (Use Feedback)) : (keeper.after d us).kept.pool.rate =
      larger (replay d.kept.pool.rate (reports d us)) Pool.leastRate := by
  induction us using List.reverseRecOn with
  | nil => exact (larger_leastRate (hle [])).symm
  | append_singleton us u ih =>
    rw [keeper.after_concat, reports_append, replay_append]
    rcases use_cases (keeper.after d us) u with ⟨hrate, hnone⟩ | ⟨f, hkept, hevents⟩
    · rw [hrate, hnone]
      exact ih
    · have hreported := (keeper.after d us).kept.observe_reported f u.time
      rw [hkept, hevents, (hreported.rate_eq (hle us)).2]
      cases (keeper.after d us).kept.report f u.time with
      | none => rwa [← larger_leastRate (hle us)] at ih
      | some e => rfl

/-- A pool whose figures are steady never asks for a rate below the lowest one. -/
theorem Steady.not_low (h : Steady ceiling floor) (hceiling : ceiling.isNaN = false)
    (hfloor : floor.isNaN = false) (capacity recovery start : Nat) (us : List (Use Feedback)) :
    lt (keeper.after (.new (Adaptive.new capacity ceiling floor recovery start)) us).kept.slower
      Pool.leastRate = false := by
  refine Double.not_lt_of_le (h.le_slower hceiling hfloor
    (banded_after hceiling hfloor capacity recovery start us) ?_)
  rintro rfl
  exact rate_infinite floor capacity recovery start us

/-- A pool whose ceiling is finite starts at a finite rate. -/
theorem rate_new_finite (hceiling : ceiling ≠ .infinity) (floor : Double)
    (capacity recovery start : Nat) :
    (Adaptive.new capacity ceiling floor recovery start).pool.rate.magnitude <
      Double.infiniteMagnitude := by
  have hrate : (Adaptive.new capacity ceiling floor recovery start).pool.rate =
      ceiling.max Pool.leastRate := rfl
  have hamount : (ceiling.max Pool.leastRate).IsAmount :=
    (Pool.isAmount_larger_leastRate ceiling).1
  rw [hrate]
  refine Nat.lt_of_le_of_ne hamount.le_infinite fun hinf => ?_
  have heq : ceiling.max Pool.leastRate = .infinity := by
    rw [hamount.eq_mk, hinf]
    rfl
  have hleast : (Pool.leastRate : Double) ≠ .infinity := by decide +kernel
  rcases Double.max_eq_or ceiling Pool.leastRate with hmax | hmax
  · exact hceiling (hmax.symm.trans heq)
  · exact hleast (hmax.symm.trans heq)

theorem exists_low_of_not_steady (h : ¬ Steady ceiling floor) (hceiling : ceiling.isNaN = false)
    (hfloor : floor.isNaN = false) (capacity recovery start : Nat) :
    ∃ us, lt (keeper.after (.new (Adaptive.new capacity ceiling floor recovery start))
      us).kept.slower Pool.leastRate = true := by
  obtain ⟨hfloor', hinf⟩ := not_or.1 h
  refine exists_slower_lt hceiling hfloor (.new hceiling capacity recovery start) ?_
    (rate_new_finite hinf floor capacity recovery start)
  by_contra hnot
  exact hfloor' (Double.le_of_not_lt (Double.isNaN_min hfloor hceiling) isNaN_leastRate
    (Bool.eq_false_iff.2 hnot))

/-- Where the truth is told in all histories, the events reproduce the rate. -/
theorem replay_eq_rate {d : Desk (Adaptive Double)}
    (htruth : ∀ us f now, let a := (keeper.after d us).kept
      Truthful a.pool.rate (a.observe f now).pool.rate (a.report f now))
    (us : List (Use Feedback)) :
    replay d.kept.pool.rate (reports d us) = (keeper.after d us).kept.pool.rate := by
  induction us using List.reverseRecOn with
  | nil => rfl
  | append_singleton us u ih =>
    rw [keeper.after_concat, reports_append, replay_append, ih]
    rcases use_cases (keeper.after d us) u with ⟨hrate, hnone⟩ | ⟨f, hkept, hevents⟩
    · rw [hrate, hnone]
      rfl
    · rw [hkept, hevents]
      exact (htruth us f u.time).replay_eq

/-- After a history in which a pool has come to ask for a rate below the lowest one, one more
throttled exchange tells of a rate that is not set. -/
theorem replay_ne_rate {d : Desk (Adaptive Double)} {us : List (Use Feedback)}
    (hle : (Pool.leastRate : Double).le (keeper.after d us).kept.pool.rate = true)
    (hlow : lt (keeper.after d us).kept.slower Pool.leastRate = true) :
    replay d.kept.pool.rate (reports d (us ++ [⟨0, .inr .throttled⟩])) ≠
      (keeper.after d (us ++ [⟨0, .inr .throttled⟩])).kept.pool.rate := by
  obtain ⟨hreport, hrate⟩ := report_of_low hle hlow 0
  have hevents : reports (keeper.after d us) [⟨0, .inr .throttled⟩] =
      [⟨false, (keeper.after d us).kept.pool.rate, (keeper.after d us).kept.slower⟩] := by
    change ((keeper.after d us).kept.report .throttled 0).toList ++ [] = _
    rw [hreport]
    rfl
  rw [keeper.after_concat, reports_append, replay_append, hevents]
  change (keeper.after d us).kept.slower ≠ ((keeper.after d us).kept.observe .throttled 0).pool.rate
  rw [hrate]
  exact Double.ne_of_lt hlow

/-- **What an adaptive pool tells of its rate.**  Whatever numbers the ceiling and the floor are,
and whatever is taken and observed at whatever times: an event has the rate before it, and the truth
is told unless a throttled exchange asks for a rate below the lowest one of any pool.  Then a step
down to the rate that is asked for is told, and the lowest rate is set.  So the rate is the one told
last, or the lowest rate if that is higher.  The truth is told in all histories, and the events of
all histories reproduce the rate, if and only if the figures of the pool are steady. -/
theorem truthful_iff_steady (capacity recovery start : Nat) (ceiling floor : Double)
    (hceiling : ceiling.isNaN = false) (hfloor : floor.isNaN = false) :
    let first := Desk.new (Adaptive.new capacity ceiling floor recovery start)
    (∀ us f now, let a := (keeper.after first us).kept
      (∀ e ∈ a.report f now, e.before = a.pool.rate) ∧
        (Truthful a.pool.rate (a.observe f now).pool.rate (a.report f now) ↔
          ¬ (f = .throttled ∧ lt a.slower Pool.leastRate = true)) ∧
        (f = .throttled → lt a.slower Pool.leastRate = true →
          a.report f now = some ⟨false, a.pool.rate, a.slower⟩ ∧
            (a.observe f now).pool.rate = Pool.leastRate)) ∧
    (∀ us, (keeper.after first us).kept.pool.rate =
      larger (replay first.kept.pool.rate (reports first us)) Pool.leastRate) ∧
    ((∀ us f now, let a := (keeper.after first us).kept
      Truthful a.pool.rate (a.observe f now).pool.rate (a.report f now)) ↔
        Steady ceiling floor) ∧
    ((∀ us, replay first.kept.pool.rate (reports first us) =
      (keeper.after first us).kept.pool.rate) ↔ Steady ceiling floor) := by
  intro first
  have hbanded := banded_after hceiling hfloor capacity recovery start
  have hle (us : List (Use Feedback)) :
      (Pool.leastRate : Double).le (keeper.after first us).kept.pool.rate = true :=
    (hbanded us).leastRate_le
  have htruth_iff (us : List (Use Feedback)) (f : Feedback) (now : Nat) :=
    truthful_iff (hle us) f now
  have hsteady : Steady ceiling floor → ∀ us f now, let a := (keeper.after first us).kept
      Truthful a.pool.rate (a.observe f now).pool.rate (a.report f now) := by
    intro h us f now
    refine (htruth_iff us f now).2 fun hlow => ?_
    have hnot := h.not_low hceiling hfloor capacity recovery start us
    exact Bool.false_ne_true (hnot.symm.trans hlow.2)
  have hlow (h : ¬ Steady ceiling floor) :=
    exists_low_of_not_steady h hceiling hfloor capacity recovery start
  refine ⟨fun us f now => ⟨?_, htruth_iff us f now, ?_⟩, rate_eq_replay hle, ⟨?_, hsteady⟩,
    ⟨?_, ?_⟩⟩
  · exact ((observe_reported _ f now).rate_eq (hle us)).1
  · rintro rfl hlow
    exact report_of_low (hle us) hlow now
  · intro htruth
    by_contra h
    obtain ⟨us, hus⟩ := hlow h
    exact (htruth_iff us .throttled 0).1 (htruth us .throttled 0) ⟨rfl, hus⟩
  · intro htold
    by_contra h
    obtain ⟨us, hus⟩ := hlow h
    exact replay_ne_rate (hle us) hus (htold _)
  · exact fun h => replay_eq_rate (hsteady h)

/-- A pool with a ceiling of sixteen and a floor of two tells the truth; one with a ceiling of 0.015
and a floor of 0.001 tells two steps down to 0.0075 and to 0.005, while the rate goes down to 0.01
once. -/
theorem truthful_iff_steady_two :
    (let first := Desk.new (Adaptive.new 3 (Double.ofNat 16) (.ofNat 2) 1 0)
      let us : List (Use Feedback) :=
        [⟨0, .inr .throttled⟩, ⟨0, .inl (.take 1)⟩, ⟨0, .inr .success⟩]
      (Double.ofNat 16).isNaN = false ∧ (Double.ofNat 2).isNaN = false ∧
        (keeper.after first us).kept.pool.rate = .round false 96 10 ∧
        replay first.kept.pool.rate (reports first us) = (keeper.after first us).kept.pool.rate) ∧
    (let first := Desk.new (Adaptive.new 1 (Double.round false 15 1000) (.round false 1 1000) 1 0)
      let us : List (Use Feedback) := [⟨0, .inr .throttled⟩, ⟨0, .inr .throttled⟩]
      (Double.round false 15 1000).isNaN = false ∧ (Double.round false 1 1000).isNaN = false ∧
        ¬ Steady (.round false 15 1000) (.round false 1 1000) ∧
        (keeper.after first us).kept.pool.rate =
          larger (replay first.kept.pool.rate (reports first us)) Pool.leastRate) := by
  have hsteady : Steady (.ofNat 16) (.ofNat 2) := by decide +kernel
  have hlow : ¬ Steady (.round false 15 1000) (.round false 1 1000) := by decide +kernel
  have hsixteen := truthful_iff_steady 3 1 0 (.ofNat 16) (.ofNat 2) (by decide +kernel)
    (by decide +kernel)
  have hsmall := truthful_iff_steady 1 1 0 (.round false 15 1000) (.round false 1 1000)
    (by decide +kernel) (by decide +kernel)
  exact ⟨⟨by decide +kernel, by decide +kernel, by decide +kernel, hsixteen.2.2.2.2 hsteady _⟩,
    by decide +kernel, by decide +kernel, hlow, hsmall.2.1 _⟩

/-- Of two throttled exchanges both tell of a step down, to 0.0075 and to 0.005.  The first one sets
the lowest rate and the second one changes nothing. -/
theorem steps_told_in_vain :
    let a := Adaptive.new 1 (Double.round false 15 1000) (.round false 1 1000) 1 0
    let b := a.observe .throttled 0
    (Double.round false 15 1000).isNaN = false ∧ (Double.round false 1 1000).isNaN = false ∧
      a.report .throttled 0 = some ⟨false, .round false 15 1000, .round false 75 10000⟩ ∧
      b.pool.rate = Pool.leastRate ∧
      b.report .throttled 0 = some ⟨false, Pool.leastRate, .round false 5 1000⟩ ∧
      (b.observe .throttled 0).pool.rate = b.pool.rate ∧
      ¬ Truthful a.pool.rate b.pool.rate (a.report .throttled 0) ∧
      ¬ Truthful b.pool.rate (b.observe .throttled 0).pool.rate (b.report .throttled 0) := by
  intro a b
  have hfirst : a.report .throttled 0 =
      some ⟨false, .round false 15 1000, .round false 75 10000⟩ := by decide +kernel
  have hset : b.pool.rate = Pool.leastRate := by decide +kernel
  have hsecond : b.report .throttled 0 = some ⟨false, Pool.leastRate, .round false 5 1000⟩ := by
    decide +kernel
  have hkept : (b.observe .throttled 0).pool.rate = b.pool.rate := by decide +kernel
  refine ⟨by decide +kernel, by decide +kernel, hfirst, hset, hsecond, hkept, ?_, ?_⟩
  · intro htruth
    have hafter := htruth.after_eq _ hfirst
    rw [hset] at hafter
    exact absurd hafter (by decide +kernel)
  · intro htruth
    exact htruth.isSome_iff.1 (by rw [hsecond]; rfl) hkept

end Truth

end Adaptive

end DriveDelta
