import DriveDelta.Admission.Adaptive
import DriveDelta.Admission.ServiceClass

/-!
# The limiter

Every class of traffic has a static pool and, if configured, an adaptive one beside it.

## What is here

* `LimiterConfig` and `Limiter.new`;
* `Limiter.kind`, the pool that a call draws from, and `Limiter.pool`, `Limiter.setPool`;
* `Limiter.take`, a try to take tokens, and `Limiter.feed`, what an observation does;
* `Limiter.refresh`, which credits every pool, as looking at it does.
-/

set_option autoImplicit false

namespace DriveDelta

open Number

variable {α : Type}

/-- The figures of one static pool. -/
structure PoolConfig (α : Type) where
  capacity : Nat
  refillPerSecond : α
  deriving DecidableEq, Repr

/-- What makes a pool adaptive; its ceiling is the rate of the static pool. -/
structure SlidingConfig (α : Type) where
  floorPerSecond : α
  recoverySuccesses : Nat
  /-- The classes that get an adaptive pool. -/
  classes : List ServiceClass
  deriving DecidableEq, Repr

/-- The figures of a limiter. -/
structure LimiterConfig (α : Type) where
  standard : PoolConfig α
  bulk : PoolConfig α
  sliding : Option (SlidingConfig α)
  deriving DecidableEq, Repr

namespace LimiterConfig

/-- The figures for one class. -/
def pool (cfg : LimiterConfig α) : ServiceClass → PoolConfig α
  | .standard => cfg.standard
  | .bulkContainer => cfg.bulk

end LimiterConfig

/-- The pools of one class. -/
structure ClassPools (α : Type) where
  static : Pool α
  sliding : Option (Adaptive α)
  deriving DecidableEq, Repr

/-- The pools of every class. -/
structure Limiter (α : Type) where
  standard : ClassPools α
  bulk : ClassPools α
  deriving DecidableEq, Repr

namespace Limiter

/-- The pools of a class. -/
def pools (l : Limiter α) : ServiceClass → ClassPools α
  | .standard => l.standard
  | .bulkContainer => l.bulk

/-- Replace the pools of a class. -/
def setPools (l : Limiter α) (c : ServiceClass) (ps : ClassPools α) : Limiter α :=
  match c with
  | .standard => { l with standard := ps }
  | .bulkContainer => { l with bulk := ps }

/-- The kind of pool that a call draws from: an adaptive one if it asks for one that is there. -/
def kind (l : Limiter α) (c : ServiceClass) (sliding : Bool) : PoolKind :=
  if sliding && (l.pools c).sliding.isSome then .sliding else .static

/-- A pool by class and kind.  Without an adaptive pool the static one serves. -/
def pool (l : Limiter α) (c : ServiceClass) : PoolKind → Pool α
  | .static => (l.pools c).static
  | .sliding => ((l.pools c).sliding.map (·.pool)).getD (l.pools c).static

/-- Replace a pool.  Without an adaptive pool the static one is replaced. -/
def setPool (l : Limiter α) (c : ServiceClass) (k : PoolKind) (p : Pool α) : Limiter α :=
  let ps := l.pools c
  match k, ps.sliding with
  | .sliding, some a => l.setPools c { ps with sliding := some { a with pool := p } }
  | _, _ => l.setPools c { ps with static := p }

variable [Number α]

/-- The pools of one class as configured, full. -/
def newPools (cfg : LimiterConfig α) (now : Nat) (c : ServiceClass) : ClassPools α where
  static := .new (cfg.pool c).capacity (cfg.pool c).refillPerSecond now
  sliding :=
    (cfg.sliding.filter fun s => s.classes.contains c).map fun s =>
      .new (cfg.pool c).capacity (cfg.pool c).refillPerSecond s.floorPerSecond
        s.recoverySuccesses now

/-- A limiter with full pools. -/
def new (cfg : LimiterConfig α) (now : Nat) : Limiter α :=
  ⟨newPools cfg now .standard, newPools cfg now .bulkContainer⟩

/-- Try to take tokens from one pool. -/
def take (l : Limiter α) (c : ServiceClass) (k : PoolKind) (cost now : Nat) :
    Limiter α × Pool.Take :=
  let r := (l.pool c k).take cost now
  (l.setPool c k r.1, r.2)

/-- Tell the adaptive pool of a class what a call that it admitted observed. -/
def feed (l : Limiter α) (c : ServiceClass) (f : Feedback) (now : Nat) :
    Limiter α × Option (RateChange α) :=
  match (l.pools c).sliding, f with
  | some a, .success =>
    let r := a.recordSuccess now
    (l.setPools c { l.pools c with sliding := some r.1 }, r.2)
  | some a, .throttled =>
    let r := a.recordThrottled now
    (l.setPools c { l.pools c with sliding := some r.1 }, r.2)
  | _, _ => (l, none)

/-- Credit every pool with what has accrued, as a look at the tokens available does. -/
def refresh (l : Limiter α) (now : Nat) : Limiter α :=
  let look (ps : ClassPools α) : ClassPools α :=
    ⟨ps.static.filled now, ps.sliding.map fun a => { a with pool := a.pool.filled now }⟩
  ⟨look l.standard, look l.bulk⟩

end Limiter

/-! ## The built-in figures -/

namespace LimiterConfig

variable [Number α]

def builtin : LimiterConfig α where
  standard := ⟨200, ofNat 16⟩
  bulk := ⟨300, ofNat 20⟩
  sliding := some ⟨ofNat 2, 10, [.standard]⟩

end LimiterConfig

end DriveDelta
