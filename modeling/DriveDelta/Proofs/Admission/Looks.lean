import DriveDelta.Proofs.Admission.Crediting

/-!
# Looks at a limiter

A limiter has two classes of pools and up to two kinds of them.  A look at one of its pools, or an
observation that is passed on, leaves every other pool as it is, and none of them changes which
pools there are.

## What is here

* `Limiter.Has` and `Limiter.Alike`, the pools that there are, and what replacing one of them does
  to the others;
* `Limiter.Idles` and `Limiter.Admits`, what uses of a limiter do that take nothing, and what one
  admission does;
* `Limiter.Looked`, how a look ends, with `Limiter.arrive_looked` and `Limiter.resume_looked`;
* `Limiter.Sound`, for limiters over doubles, which holds of every one that is in use
  (`Limiter.InUse`).
-/

set_option autoImplicit false

namespace DriveDelta

open Number

namespace Adaptive

variable {α : Type} [Number α]

theorem recordThrottled_accrued (a : Adaptive α) (now : Nat) :
    a.pool.Accrued now (a.recordThrottled now).1.pool := by
  rw [recordThrottled]
  split
  · exact .paced _
  · exact .credited .refl

theorem recordSuccess_accrued (a : Adaptive α) (now : Nat) :
    a.pool.Accrued now (a.recordSuccess now).1.pool := by
  simp only [recordSuccess]
  split
  · exact .credited .refl
  · split
    · exact .paced _
    · exact .credited .refl

end Adaptive

namespace Limiter

section Places

variable {α : Type}

/-- Whether there is a pool of this class and kind. -/
def Has (l : Limiter α) (c : ServiceClass) : PoolKind → Prop
  | .static => True
  | .sliding => (l.pools c).sliding.isSome = true

/-- Two limiters with the same pools, though these may differ in what they hold. -/
def Alike (l l' : Limiter α) : Prop :=
  ∀ c, (l'.pools c).sliding.isSome = (l.pools c).sliding.isSome

variable {l l' l'' : Limiter α} {c c' : ServiceClass} {k k' : PoolKind} {p : Pool α}

theorem Alike.refl (l : Limiter α) : l.Alike l := fun _ => rfl

theorem Alike.trans (h : l.Alike l') (h' : l'.Alike l'') : l.Alike l'' :=
  fun c => (h' c).trans (h c)

theorem Alike.kind_eq (h : l.Alike l') (c : ServiceClass) (sliding : Bool) :
    l'.kind c sliding = l.kind c sliding := by
  rw [kind, kind, h c]

/-- A call draws from a pool that is there. -/
theorem has_kind (l : Limiter α) (c : ServiceClass) (sliding : Bool) :
    l.Has c (l.kind c sliding) := by
  rw [kind]
  split
  · rename_i h
    exact (Bool.and_eq_true_iff.1 h).2
  · trivial

theorem pools_setPools (l : Limiter α) (c c' : ServiceClass) (ps : ClassPools α) :
    (l.setPools c ps).pools c' = if c' = c then ps else l.pools c' := by
  cases c <;> cases c' <;> rfl

theorem setPool_static :
    l.setPool c .static p = l.setPools c { l.pools c with static := p } := rfl

theorem setPool_sliding {a : Adaptive α} (h : (l.pools c).sliding = some a) :
    l.setPool c .sliding p =
      l.setPools c { l.pools c with sliding := some { a with pool := p } } := by
  simp only [setPool, h]

theorem setPool_sliding_of_none (h : (l.pools c).sliding = none) :
    l.setPool c .sliding p = l.setPools c { l.pools c with static := p } := by
  simp only [setPool, h]

theorem pools_setPool_of_ne (h : c' ≠ c) : (l.setPool c k p).pools c' = l.pools c' := by
  have hps : ∃ ps, l.setPool c k p = l.setPools c ps := by
    cases k with
    | static => exact ⟨_, setPool_static⟩
    | sliding =>
      cases hs : (l.pools c).sliding with
      | none => exact ⟨_, setPool_sliding_of_none hs⟩
      | some a => exact ⟨_, setPool_sliding hs⟩
  obtain ⟨ps, hps⟩ := hps
  rw [hps, pools_setPools, if_neg h]

theorem alike_setPool (l : Limiter α) (c : ServiceClass) (k : PoolKind) (p : Pool α) :
    l.Alike (l.setPool c k p) := by
  intro c'
  by_cases hc : c' = c
  · subst hc
    cases k with
    | static => rw [setPool_static, pools_setPools, if_pos rfl]
    | sliding =>
      cases hs : (l.pools c').sliding with
      | none => rw [setPool_sliding_of_none hs, pools_setPools, if_pos rfl, hs]
      | some a => rw [setPool_sliding hs, pools_setPools, if_pos rfl]; rfl
  · rw [pools_setPool_of_ne hc]

@[simp] theorem pool_setPool (l : Limiter α) (c : ServiceClass) (k : PoolKind) (p : Pool α) :
    (l.setPool c k p).pool c k = p := by
  cases k with
  | static => rw [setPool_static, pool, pools_setPools, if_pos rfl]
  | sliding =>
    cases hs : (l.pools c).sliding with
    | none => rw [setPool_sliding_of_none hs, pool, pools_setPools, if_pos rfl, hs]; rfl
    | some a => rw [setPool_sliding hs, pool, pools_setPools, if_pos rfl]; rfl

/-- Replacing one pool leaves the others. -/
theorem pool_setPool_of_ne (hk : l.Has c k) (hne : c' ≠ c ∨ k' ≠ k) :
    l.Has c' k' → (l.setPool c k p).pool c' k' = l.pool c' k' := by
  intro hk'
  by_cases hc : c' = c
  · subst hc
    have hkk : k' ≠ k := hne.resolve_left (by simp)
    cases k with
    | static =>
      cases k' with
      | static => exact absurd rfl hkk
      | sliding =>
        obtain ⟨a, ha⟩ := Option.isSome_iff_exists.1 hk'
        rw [setPool_static, pool, pool, pools_setPools, if_pos rfl, ha]
        rfl
    | sliding =>
      obtain ⟨a, ha⟩ := Option.isSome_iff_exists.1 hk
      cases k' with
      | static => rw [setPool_sliding ha, pool, pool, pools_setPools, if_pos rfl]
      | sliding => exact absurd rfl hkk
  · cases k' <;> rw [pool, pool, pools_setPool_of_ne hc]

theorem setPools_self (l : Limiter α) (c : ServiceClass) : l.setPools c (l.pools c) = l := by
  cases c <;> rfl

@[simp] theorem setPool_pool (l : Limiter α) (c : ServiceClass) (k : PoolKind) :
    l.setPool c k (l.pool c k) = l := by
  cases k with
  | static => rw [setPool_static, pool, setPools_self]
  | sliding =>
    cases hs : (l.pools c).sliding with
    | none => rw [setPool_sliding_of_none hs, pool, hs]; exact setPools_self l c
    | some a =>
      have hself : ({ l.pools c with sliding := some { a with pool := a.pool } } : ClassPools α)
          = l.pools c := by rw [← hs]
      rw [setPool_sliding hs, pool, hs]
      exact hself ▸ setPools_self l c

/-- Where there is no pool of a kind, another one answers for it. -/
theorem exists_has (l : Limiter α) (c : ServiceClass) (k : PoolKind) :
    ∃ k', l.Has c k' ∧ l.pool c k = l.pool c k' ∧ ∀ p, l.setPool c k p = l.setPool c k' p := by
  cases k with
  | static => exact ⟨.static, trivial, rfl, fun _ => rfl⟩
  | sliding =>
    cases hs : (l.pools c).sliding with
    | none =>
      refine ⟨.static, trivial, ?_, fun p => setPool_sliding_of_none hs⟩
      show ((l.pools c).sliding.map (·.pool)).getD (l.pools c).static = (l.pools c).static
      rw [hs]
      rfl
    | some a => exact ⟨.sliding, by rw [Has, hs]; rfl, rfl, fun _ => rfl⟩

end Places

/-! ## What uses do -/

section Uses

variable {α : Type} [Number α]

/-- A new limiter has new pools. -/
theorem pool_new (cfg : LimiterConfig α) (now : Nat) (c : ServiceClass) (k : PoolKind) :
    (Limiter.new cfg now).pool c k =
      .new (cfg.pool c).capacity (cfg.pool c).refillPerSecond now := by
  have hpools : (Limiter.new cfg now).pools c = newPools cfg now c := by cases c <;> rfl
  cases k with
  | static => rw [pool, hpools]; rfl
  | sliding =>
    rw [pool, hpools, newPools]
    cases cfg.sliding.filter fun s => s.classes.contains c <;> rfl

/-- What uses at one point in time do that take nothing from any pool. -/
structure Idles (now : Nat) (l l' : Limiter α) : Prop where
  alike : l.Alike l'
  accrued : ∀ c k, (l.pool c k).Accrued now (l'.pool c k)

/-- What one admission does: it is paid by one pool, and the others are left alone. -/
structure Admits (c : ServiceClass) (k : PoolKind) (cost now : Nat) (l l' : Limiter α) :
    Prop where
  alike : l.Alike l'
  paid : (l.pool c k).Paid cost now (l'.pool c k)
  others : ∀ c' k', c' ≠ c ∨ k' ≠ k → l.Has c' k' → l'.pool c' k' = l.pool c' k'

/-- How a look at a pool ends, with the limiter after it. -/
inductive Looked (c : ServiceClass) (k : PoolKind) (cost now : Nat) (l : Limiter α) :
    Option CancelReason → Limiter α → Turn → Prop where
  | cancelled (reason : CancelReason) : Looked c k cost now l (some reason) l (.cancelled reason)
  | granted {l' : Limiter α} (h : l.Admits c k cost now l') : Looked c k cost now l none l' .granted
  | asleep {l' : Limiter α} {until_ : Nat} (h : l.Idles now l')
      (hlacks : (l'.pool c k).Lacks cost now) (hlater : now + Nanos.milli ≤ until_) :
      Looked c k cost now l none l' (.asleep until_)

variable {l l' : Limiter α} {c : ServiceClass} {k : PoolKind} {cost now : Nat} {p q : Pool α}

theorem Idles.refl (l : Limiter α) (now : Nat) : l.Idles now l :=
  ⟨.refl l, fun _ _ => .credited .refl⟩

/-- Replacing one pool by one that took nothing out of it. -/
theorem idles_setPool (hk : l.Has c k) (h : (l.pool c k).Credited now q) :
    l.Idles now (l.setPool c k q) := by
  refine ⟨alike_setPool l c k q, fun c' k' => ?_⟩
  -- without an adaptive pool the static one answers for it
  have hplace (k'' : PoolKind) (hk'' : l.Has c' k'') :
      (l.pool c' k'').Accrued now ((l.setPool c k q).pool c' k'') := by
    by_cases hne : c' ≠ c ∨ k'' ≠ k
    · rw [pool_setPool_of_ne hk hne hk'']
      exact .credited .refl
    · simp only [ne_eq, not_or, not_not] at hne
      obtain ⟨rfl, rfl⟩ := hne
      rw [pool_setPool]
      exact .credited h
  cases k' with
  | static => exact hplace .static trivial
  | sliding =>
    cases hs : (l.pools c').sliding with
    | none =>
      have hs' : ((l.setPool c k q).pools c').sliding = none := by
        simpa [hs] using alike_setPool l c k q c'
      have hstatic := hplace .static trivial
      simpa only [pool, hs, hs', Option.map_none, Option.getD_none] using hstatic
    | some a => exact hplace .sliding (by rw [Has, hs]; rfl)

theorem admits_setPool (hk : l.Has c k) (h : (l.pool c k).Paid cost now q) :
    l.Admits c k cost now (l.setPool c k q) :=
  ⟨alike_setPool l c k q, by rwa [pool_setPool], fun _ _ hne hk' => pool_setPool_of_ne hk hne hk'⟩

/-- What holds of every pool before an admission, and of the one that paid after it, holds of every
pool after it. -/
theorem Admits.forall_pools {Q : Pool α → Prop} (hl : l.Admits c k cost now l')
    (h : ∀ c k, Q (l.pool c k)) (hq : Q (l'.pool c k)) (c' : ServiceClass) (k' : PoolKind) :
    Q (l'.pool c' k') := by
  have hplace (k' : PoolKind) (hk' : l.Has c' k') : Q (l'.pool c' k') := by
    by_cases hne : c' ≠ c ∨ k' ≠ k
    · rw [hl.others c' k' hne hk']
      exact h c' k'
    · simp only [ne_eq, not_or, not_not] at hne
      obtain ⟨rfl, rfl⟩ := hne
      exact hq
  cases k' with
  | static => exact hplace .static trivial
  | sliding =>
    cases hs : (l'.pools c').sliding with
    | none =>
      rw [pool, hs]
      exact hplace .static trivial
    | some a => exact hplace .sliding (by rw [Has, ← hl.alike, hs]; rfl)

theorem wake_later (now span : Nat) :
    now + Nanos.milli ≤ Nanos.wake now (max span Nanos.milli) := by
  have hmax : Nanos.milli ≤ max span Nanos.milli := Nat.le_max_right _ _
  rw [Nanos.wake, Nanos.after?]
  split
  · exact Nat.add_le_add_left hmax now
  · exact Nat.add_le_add_left (by decide) now

/-- One look at a pool that may have been looked at before. -/
theorem turn_looked (hk : l.Has c k) (hp : (l.pool c k).Credited now p)
    (status : Option CancelReason) (hstatus : status.isSome → p = l.pool c k) :
    Looked c k cost now l status (l.setPool c k (p.turn cost now status).1)
      (p.turn cost now status).2 := by
  cases status with
  | some reason =>
    obtain rfl := hstatus rfl
    rw [Pool.turn, setPool_pool]
    exact .cancelled reason
  | none =>
    rw [Pool.turn]
    rcases p.take_cases cost now with ⟨q, heq, hpaid⟩ | ⟨span, heq, hlacks⟩
    · rw [heq]
      exact .granted (admits_setPool hk (hpaid.of_credited hp))
    · rw [heq]
      exact .asleep (idles_setPool hk (.filled hp)) (by rwa [pool_setPool])
        (wake_later now span)

/-- The first look of a newcomer. -/
theorem arrive_looked (hk : l.Has c k) (cost now : Nat) (status : Option CancelReason) :
    Looked c k cost now l status (l.arrive c k cost now status).1
      (l.arrive c k cost now status).2.1 := by
  cases status with
  | some reason => exact .cancelled reason
  | none =>
    rw [arrive]
    rcases (l.pool c k).take_cases cost now with ⟨q, heq, hpaid⟩ | ⟨span, heq, hlacks⟩
    · rw [heq]
      exact .granted (admits_setPool hk hpaid)
    · rw [heq]
      exact turn_looked hk (.filled .refl) none (by simp)

/-- The look of one who has been asleep. -/
theorem resume_looked {turn : Turn} (hk : l.Has c k) {status : Option CancelReason} {until_ : Nat}
    (h : l.resume c k cost now status until_ = some (l', turn)) :
    (status.isSome ∨ until_ ≤ now) ∧ Looked c k cost now l status l' turn := by
  rw [resume, Option.map_eq_some_iff] at h
  obtain ⟨r, hr, heq⟩ := h
  rw [Pool.resume] at hr
  split at hr
  · rename_i hdue
    obtain rfl := Option.some_inj.1 hr
    obtain ⟨rfl, rfl⟩ := Prod.mk.inj heq
    exact ⟨by simpa using hdue, turn_looked hk .refl status fun _ => rfl⟩
  · exact absurd hr (by simp)

/-- A try to take tokens is an admission or takes nothing. -/
theorem take_cases (l : Limiter α) (c : ServiceClass) (k : PoolKind) (cost now : Nat) :
    (∃ k', l.Admits c k' cost now (l.take c k cost now).1) ∨
      l.Idles now (l.take c k cost now).1 := by
  obtain ⟨k', hk', hpool, hset⟩ := l.exists_has c k
  have htake : (l.take c k cost now).1 = l.setPool c k' ((l.pool c k').take cost now).1 := by
    rw [take, hpool, hset]
  rw [htake]
  rcases (l.pool c k').take_cases cost now with ⟨q, heq, hpaid⟩ | ⟨span, heq, -⟩
  · rw [heq]
    exact .inl ⟨k', admits_setPool hk' hpaid⟩
  · rw [heq]
    exact .inr (idles_setPool hk' (.filled .refl))

/-- Replacing an adaptive pool by one that took nothing out of it. -/
theorem idles_setPools {a b : Adaptive α} (ha : (l.pools c).sliding = some a)
    (h : a.pool.Accrued now b.pool) :
    l.Idles now (l.setPools c { l.pools c with sliding := some b }) := by
  have hne {c' : ServiceClass} (hc : c' ≠ c) :
      (l.setPools c { l.pools c with sliding := some b }).pools c' = l.pools c' := by
    rw [pools_setPools, if_neg hc]
  have hself : (l.setPools c { l.pools c with sliding := some b }).pools c
      = { l.pools c with sliding := some b } := by
    rw [pools_setPools, if_pos rfl]
  refine ⟨fun c' => ?_, fun c' k' => ?_⟩
  · by_cases hc : c' = c
    · rw [hc, hself, ha]
      rfl
    · rw [hne hc]
  · by_cases hc : c' = c
    · rw [hc]
      cases k' with
      | static =>
        rw [pool, pool, hself]
        exact .credited .refl
      | sliding =>
        rw [pool, pool, hself, ha]
        exact h
    · cases k' <;> rw [pool, pool, hne hc] <;> exact .credited .refl

/-- Passing on an observation takes nothing. -/
theorem feed_idles (l : Limiter α) (c : ServiceClass) (f : Feedback) (now : Nat) :
    l.Idles now (l.feed c f now).1 := by
  rw [feed.eq_def]
  split
  · rename_i a ha
    exact idles_setPools ha (a.recordSuccess_accrued now)
  · rename_i a ha
    exact idles_setPools ha (a.recordThrottled_accrued now)
  · exact .refl l now

theorem complete_idles (l : Limiter α) (c : ServiceClass) (k : PoolKind) (f : Feedback)
    (now : Nat) : l.Idles now (l.complete c k f now).1 := by
  cases k with
  | static => exact .refl l now
  | sliding => exact feed_idles l c f now

end Uses

/-! ## Limiters over doubles -/

/-- What holds of every limiter whose capacities are 32-bit numbers, however it is used. -/
def Sound (l : Limiter Double) : Prop := ∀ c k, (l.pool c k).Sound

variable {l l' : Limiter Double} {c : ServiceClass} {k : PoolKind} {cost now : Nat}

theorem Sound.new {cfg : LimiterConfig Double} (h : ∀ c, (cfg.pool c).capacity ≤ maxCount)
    (now : Nat) : (Limiter.new cfg now).Sound := by
  intro c k
  rw [pool_new]
  exact Pool.Sound.new (h c) (cfg.pool c).refillPerSecond now

theorem Sound.idles (h : l.Sound) (hl : l.Idles now l') : l'.Sound :=
  fun c k => ((h c k).accrued (hl.accrued c k)).1

theorem Sound.admits (h : l.Sound) (hl : l.Admits c k cost now l') : l'.Sound :=
  hl.forall_pools h ((h c k).paid hl.paid)

theorem Sound.looked {status : Option CancelReason} {turn : Turn} (h : l.Sound)
    (hl : Looked c k cost now l status l' turn) : l'.Sound := by
  cases hl with
  | cancelled reason => exact h
  | granted hl => exact h.admits hl
  | asleep hl => exact h.idles hl

/-- A limiter as its users leave it: it was configured with 32-bit capacities, and since then tokens
have been taken from it and observations passed on to it. -/
inductive InUse : Limiter Double → Prop where
  | new {cfg : LimiterConfig Double} (h : ∀ c, (cfg.pool c).capacity ≤ maxCount) (now : Nat) :
      InUse (.new cfg now)
  | take {l : Limiter Double} (h : InUse l) (c : ServiceClass) (k : PoolKind) (cost now : Nat) :
      InUse (l.take c k cost now).1
  | feed {l : Limiter Double} (h : InUse l) (c : ServiceClass) (f : Feedback) (now : Nat) :
      InUse (l.feed c f now).1

theorem InUse.sound (h : l.InUse) : l.Sound := by
  induction h with
  | new h now => exact .new h now
  | @take l _ c k cost now ih =>
    rcases l.take_cases c k cost now with ⟨k', hl⟩ | hl
    · exact ih.admits hl
    · exact ih.idles hl
  | @feed l _ c f now ih => exact ih.idles (l.feed_idles c f now)

end Limiter

end DriveDelta
