import DriveDelta.Proofs.Admission.Rest
import DriveDelta.Proofs.Rehearsal.Launching

/-!
# Pools do not interfere

A workload is performed twice with a new limiter: once as it is, and once with only those of its
jobs that draw from one of the pools.  These jobs cannot tell the difference, so a pool that is
exhausted holds nobody up who draws from another one.

## What is here

* `Job.perform`, the rehearsal of a workload, and `Job.draws`, which of its jobs draw from a pool;
* `Job.Separate`, what it is that one pool does not notice of the others;
* `Job.pools_separate`: no pool notices anything of the others.
-/

set_option autoImplicit false

namespace DriveDelta

open Number

namespace Job

/-- A workload is performed with a new limiter, for up to `fuel` steps. -/
def perform (cfg : LimiterConfig Double) (jobs : List (Nat × Recipe × Job)) (fuel : Nat) :
    Run (Limiter Double) Job Result :=
  (Run.launch { shared := Limiter.new cfg 0 } jobs : Run (Limiter Double) Job Result).settle
    machine fuel

/-- Whether a job of a workload draws from a pool. -/
def draws (cfg : LimiterConfig Double) (c : ServiceClass) (k : PoolKind)
    (t : Nat × Recipe × Job) : Bool :=
  decide (t.2.2.place cfg (Stage.options t.2.1) = (c, k))

theorem shares_part (cfg : LimiterConfig Double) (c : ServiceClass) (k : PoolKind) :
    Run.shares (part cfg c k) = draws cfg c k := rfl

/-- A workload comes to its end in `fuel` steps with all of its jobs and with only those that draw
from one pool, and these cannot tell which. -/
structure Separate (cfg : LimiterConfig Double) (jobs : List (Nat × Recipe × Job))
    (c : ServiceClass) (k : PoolKind) (fuel : Nat) : Prop where
  isOver : (perform cfg jobs fuel).isOver = true
  isOver_alone : (perform cfg (jobs.filter (draws cfg c k)) fuel).isOver = true
  /-- Every job has ended, and that once, unless a deadline lay beyond the clock. -/
  ends_once : (perform cfg jobs fuel).sound = true →
    ((perform cfg jobs fuel).endings.map (·.me)).Perm (List.range jobs.length)
  /-- The jobs have ended alike, in the same order and at the same times. -/
  endings_eq : let ch := Choice.among jobs (draws cfg c k)
    Run.told id (perform cfg (jobs.filter (draws cfg c k)) fuel).endings =
      Run.told ch.rank ((perform cfg jobs fuel).endings.filter (ch.keep ·.me))
  /-- The pool holds the same and refills at the same rate, and its counters stand alike. -/
  share_eq : (perform cfg (jobs.filter (draws cfg c k)) fuel).shared.share c k =
    (perform cfg jobs fuel).shared.share c k

theorem ends_once_of_isOver {cfg : LimiterConfig Double} {jobs : List (Nat × Recipe × Job)}
    {fuel : Nat} (hover : (perform cfg jobs fuel).isOver = true)
    (hsound : (perform cfg jobs fuel).sound = true) :
    ((perform cfg jobs fuel).endings.map (·.me)).Perm (List.range jobs.length) := by
  rw [← Run.numbers_of_isOver hover]
  exact (Run.numbers_settle rfl fuel hsound).2.trans (Run.numbers_launch _ jobs)

/-- **Pools do not interfere.**  Every workload comes to its end, and with or without the jobs of
the other pools those of one pool have the same results at the same times, and leave the same in the
pool. -/
theorem pools_separate {cfg : LimiterConfig Double} (hcfg : ∀ c, (cfg.pool c).capacity ≤ maxCount)
    (jobs : List (Nat × Recipe × Job)) (c : ServiceClass) (k : PoolKind) :
    ∃ n, ∀ fuel, n ≤ fuel → Separate cfg jobs c k fuel := by
  obtain ⟨n, hover⟩ := Run.exists_settle_isOver hcfg jobs
  obtain ⟨n', hle, hendings, hshare, hpart⟩ :=
    Run.exists_settle_part (part cfg c k) (Limiter.Alike.refl (Limiter.new cfg 0)) jobs n
  rw [shares_part] at hendings hshare hpart
  refine ⟨n, fun fuel hfuel => ?_⟩
  have hwhole : perform cfg jobs fuel = perform cfg jobs n := Run.settle_of_le hover hfuel
  have halone : perform cfg (jobs.filter (draws cfg c k)) fuel =
      perform cfg (jobs.filter (draws cfg c k)) n' :=
    Run.settle_of_le (hpart hover) (hle.trans hfuel)
  exact {
    isOver := by rw [hwhole]; exact hover
    isOver_alone := by rw [halone]; exact hpart hover
    ends_once := ends_once_of_isOver (by rw [hwhole]; exact hover)
    endings_eq := by rw [hwhole, halone]; exact hendings
    share_eq := by rw [hwhole, halone]; exact hshare }

/-- A workload whose jobs are in the order of their starts. -/
theorem perform_of_pairwise {jobs : List (Nat × Recipe × Job)}
    (h : jobs.zipIdx.Pairwise fun s t => decide (s.1.1 ≤ t.1.1) = true)
    (cfg : LimiterConfig Double) (fuel : Nat) :
    perform cfg jobs fuel = Run.settle machine fuel
      { shared := Limiter.new cfg 0
        tasks := 0 + jobs.length
        line := [] ++ jobs.zipIdx.map fun t => .later t.2 (0 + t.1.1) t.1.2.1 t.1.2.2 } := by
  rw [perform, Run.launch_of_pairwise h]

/-- While one caller waits for the pool of one class and another slows down an adaptive pool, those
who draw from a third pool are served at once and when a token has come in. -/
theorem pools_separate_exhausted :
    let cfg : LimiterConfig Double :=
      { standard := ⟨1, ofNat 1⟩, bulk := ⟨1, ofNat 1⟩
        sliding := some ⟨ofNat 1, 10, [.bulkContainer]⟩ }
    let jobs : List (Nat × Recipe × Job) :=
      [(0, {}, {}), (0, {}, {}),
        (0, { serviceClass := some .bulkContainer, sliding := some true },
          { completion := some (1000000, .throttled) }),
        (0, { serviceClass := some .bulkContainer }, {}),
        (500000000, {}, { serviceClass := some .bulkContainer, cost := some 7 })]
    let bulk := jobs.filter (draws cfg .bulkContainer .static)
    (∀ c, (cfg.pool c).capacity ≤ maxCount) ∧
      (∃ n, ∀ fuel, n ≤ fuel → Separate cfg jobs .bulkContainer .static fuel) ∧
      ((perform cfg jobs 30).endings.map fun e => (e.me, e.finish)) =
        [(0, 0), (3, 0), (2, 1000000), (1, 1000000000), (4, 1000000000)] ∧
      ((perform cfg bulk 30).endings.map fun e => (e.me, e.finish)) =
        [(0, 0), (1, 1000000000)] := by
  intro cfg jobs bulk
  have hcfg : ∀ c, (cfg.pool c).capacity ≤ maxCount := fun c => by cases c <;> decide
  refine ⟨hcfg, pools_separate hcfg jobs .bulkContainer .static, ?_, ?_⟩
  · rw [perform_of_pairwise (by decide)]
    decide +kernel
  · rw [perform_of_pairwise (by decide)]
    decide +kernel

end Job

end DriveDelta
