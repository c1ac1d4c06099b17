import DriveDelta.Config.File
import DriveDelta.Proofs.Json.Strings
import DriveDelta.Proofs.Toml.Reading
import DriveDelta.Proofs.Toml.Tables
import Mathlib.Data.List.Forall2
import Mathlib.Data.List.Nodup

/-!
# What a configuration sets

A configuration is a list of sections, in the order in which they are written.  Each section sets
its own part and leaves the others alone; only the limiter as a whole knows whether any section of
it has been written.

## What is here

* `Config.Field` and `Config.Setting`, a section with the values that it gives;
* `Config.SettingsText`, ways to write sections;
* `Config.Follows`, what a configuration is that sections set, and `Config.load_of_settingsText`:
  every text of theirs is loaded as such a configuration.
-/

set_option autoImplicit false

namespace DriveDelta.Config

open Toml (Value)

/-! ## Sections and their fields -/

/-- The value of a field. -/
inductive Field where
  | natural (n : Nat)
  | amount (x : Double)
  | name (s : String)
  | names (ss : List String)

/-- The values that a document can have in the place of a field.  A whole number stands for the
double nearest to it where an amount is asked for. -/
inductive Field.Means : Field → Value → Prop where
  | natural (n : Nat) : Means (.natural n) (.integer n)
  | amount (x : Double) : Means (.amount x) (.float x)
  | whole (n : Int) : Means (.amount (.ofInt n)) (.integer n)
  | name (s : String) : Means (.name s) (.text s)
  | names (ss : List String) : Means (.names ss) (.array (ss.map .text))

/-- A section with what it sets.  What may be left out is optional. -/
inductive Setting where
  | retry (c : RetryConfig)
  | pool (c : ServiceClass) (p : PoolConfig Double)
  | sliding (lowest : Double) (recoverySuccesses : Nat) (classes : Option (List ServiceClass))
  | cache (interval : Option Nat) (strategy : Option RefreshStrategy) (pageSize : Option Nat)

namespace Setting

/-- The name of a static pool. -/
def poolName : ServiceClass → String
  | .standard => "default"
  | .bulkContainer => "bulk"

def path : Setting → List String
  | retry .. => ["retry"]
  | pool c _ => ["limiter", poolName c]
  | sliding .. => ["limiter", "sliding"]
  | cache .. => ["url_cache"]

/-- Whether a section belongs to the limiter. -/
def IsLimiter (s : Setting) : Prop := s.path.head? = some "limiter"

def fields : Setting → List (String × Field)
  | retry c =>
    [("max_attempts", .natural c.maxAttempts), ("min_backoff_secs", .amount c.minBackoffSeconds),
      ("max_backoff_secs", .natural c.maxBackoffSeconds),
      ("per_call_timeout_secs", .natural c.perCallTimeoutSeconds)]
  | pool _ p => [("capacity", .natural p.capacity), ("refill_per_sec", .amount p.refillPerSecond)]
  | sliding lowest recoverySuccesses classes =>
    [("floor_per_sec", .amount lowest), ("recovery_successes", .natural recoverySuccesses)] ++
      (classes.map fun cs => ("classes", .names (cs.map Section.className))).toList
  | cache interval strategy pageSize =>
    (interval.map fun n => ("refresh_interval_secs", .natural n)).toList ++
      (strategy.map fun s => ("strategy", .name (Section.strategyName s))).toList ++
      (pageSize.map fun n => ("page_size", .natural n)).toList

/-- Counts have 32 bits, as far as a configuration is concerned, and seconds have 64. -/
def InRange : Setting → Prop
  | retry c => c.maxAttempts < 0x100000000 ∧ c.maxBackoffSeconds < 0x10000000000000000 ∧
      c.perCallTimeoutSeconds < 0x10000000000000000
  | pool _ p => p.capacity < 0x100000000
  | sliding _ recoverySuccesses _ => recoverySuccesses < 0x100000000
  | cache interval _ pageSize =>
    (∀ n ∈ interval, n < 0x10000000000000000) ∧ ∀ n ∈ pageSize, n < 0x100000000

theorem keys_nodup (s : Setting) : (s.fields.map Prod.fst).Nodup := by
  cases s with
  | retry c => simp [fields]
  | pool c p => simp [fields]
  | sliding lowest recoverySuccesses classes => cases classes <;> simp [fields]
  | cache interval strategy pageSize =>
    cases interval <;> cases strategy <;> cases pageSize <;> simp [fields]

theorem path_ne_nil (s : Setting) : s.path ≠ [] := by cases s <;> simp [path]

theorem eq_retry_of_path {s : Setting} (h : s.path = ["retry"]) : ∃ c, s = .retry c := by
  cases s with
  | retry c => exact ⟨c, rfl⟩
  | _ => simp [path] at h

theorem eq_pool_of_path {s : Setting} {c : ServiceClass} (h : s.path = ["limiter", poolName c]) :
    ∃ p, s = .pool c p := by
  cases s with
  | pool c' p => cases c <;> cases c' <;> first | exact ⟨p, rfl⟩ | simp [path, poolName] at h
  | _ => cases c <;> simp [path, poolName] at h

theorem eq_sliding_of_path {s : Setting} (h : s.path = ["limiter", "sliding"]) :
    ∃ lowest recoverySuccesses classes, s = .sliding lowest recoverySuccesses classes := by
  cases s with
  | sliding lowest recoverySuccesses classes => exact ⟨_, _, _, rfl⟩
  | pool c p => cases c <;> simp [path, poolName] at h
  | _ => simp [path] at h

theorem eq_cache_of_path {s : Setting} (h : s.path = ["url_cache"]) :
    ∃ interval strategy pageSize, s = .cache interval strategy pageSize := by
  cases s with
  | cache interval strategy pageSize => exact ⟨_, _, _, rfl⟩
  | _ => simp [path] at h

/-- The paths of sections. -/
def paths : List (List String) :=
  [["retry"], ["limiter", "default"], ["limiter", "bulk"], ["limiter", "sliding"], ["url_cache"]]

theorem path_mem (s : Setting) : s.path ∈ paths := by
  cases s with
  | pool c p => cases c <;> simp [path, poolName, paths]
  | _ => simp [path, paths]

/-- No section stands inside another. -/
theorem apart_of_ne {p q : List String} (hp : p ∈ paths) (hq : q ∈ paths) (h : p ≠ q) :
    Toml.Apart p q := by
  have hall : ∀ p ∈ paths, ∀ q ∈ paths, p ≠ q → Toml.Apart p q := by decide
  exact hall p hp q hq h

end Setting

/-! ## Texts -/

/-- Entries that give fields, in whatever order. -/
def Gives (fields : List (String × Field)) (es : List (String × Value)) : Prop :=
  ∃ fs, fs.Perm fields ∧ List.Forall₂ (fun f e => f.1 = e.1 ∧ f.2.Means e.2) fs es

/-- A table that gives what a section sets. -/
structure Setting.WrittenAs (s : Setting) (t : Toml.Section) : Prop where
  path_eq : t.path = s.path
  gives : Gives s.fields t.entries

/-- The ways to write sections, one after the other. -/
inductive SettingsText (settings : List Setting) : List Char → Prop where
  | intro {sections : List Toml.Section} {cs : List Char}
      (hs : List.Forall₂ Setting.WrittenAs settings sections)
      (h : Toml.DocumentText (sections.flatMap Toml.Section.statements) cs) :
      SettingsText settings cs

section Pairs

variable {α β γ : Type} {R : α → β → Prop} {xs : List α} {ys : List β}

theorem exists_of_forall₂ (h : List.Forall₂ R xs ys) {x : α} (hx : x ∈ xs) : ∃ y ∈ ys, R x y := by
  induction h with
  | nil => exact absurd hx List.not_mem_nil
  | cons hxy _ ih =>
    rcases List.mem_cons.1 hx with rfl | hx
    · exact ⟨_, List.mem_cons_self, hxy⟩
    · obtain ⟨y, hy, hxy⟩ := ih hx
      exact ⟨y, List.mem_cons_of_mem _ hy, hxy⟩

theorem map_eq_of_forall₂ {f : α → γ} {g : β → γ} (h : List.Forall₂ R xs ys)
    (hfg : ∀ x y, R x y → f x = g y) : xs.map f = ys.map g := by
  rw [← List.forall₂_eq_eq_eq, List.forall₂_map_left_iff, List.forall₂_map_right_iff]
  exact h.imp hfg

end Pairs

namespace Gives

variable {fields : List (String × Field)} {es : List (String × Value)} (h : Gives fields es)

include h

theorem keys_perm : (es.map Prod.fst).Perm (fields.map Prod.fst) := by
  obtain ⟨fs, hperm, hfs⟩ := h
  rw [← map_eq_of_forall₂ hfs fun _ _ hfe => hfe.1]
  exact hperm.map _

/-- A field that is given is found by its name. -/
theorem get?_of_mem (hnodup : (fields.map Prod.fst).Nodup) {key : String} {f : Field}
    (hf : (key, f) ∈ fields) : ∃ v, f.Means v ∧ Toml.get? key es = some v := by
  have hnodup' : (es.map Prod.fst).Nodup := h.keys_perm.nodup_iff.2 hnodup
  obtain ⟨fs, hperm, hfs⟩ := h
  obtain ⟨⟨k, v⟩, he, rfl, hmeans⟩ := exists_of_forall₂ hfs (hperm.mem_iff.2 hf)
  exact ⟨v, hmeans, Toml.get?_of_mem hnodup' he⟩

/-- A field that is left out is not found. -/
theorem get?_of_not_mem {key : String} (hkey : key ∉ fields.map Prod.fst) :
    Toml.get? key es = none :=
  Toml.get?_eq_none fun hmem => hkey (h.keys_perm.mem_iff.1 hmem)

theorem bind_get? {α : Type} {key : String} {f : Field} {read? : Value → Option α} {a : α}
    (hnodup : (fields.map Prod.fst).Nodup) (hf : (key, f) ∈ fields)
    (hread : ∀ v, f.Means v → read? v = some a) : (Toml.get? key es).bind read? = some a := by
  obtain ⟨v, hv, hget⟩ := h.get?_of_mem hnodup hf
  rw [hget, Option.bind_some, hread v hv]

/-- A field that may be left out for a value of its own. -/
theorem orElse?_get? {α : Type} {key : String} {o : Option α} {f : α → Field}
    {read? : Value → Option α} (hnodup : (fields.map Prod.fst).Nodup)
    (hmem : ∀ a ∈ o, (key, f a) ∈ fields) (hnone : o = none → key ∉ fields.map Prod.fst)
    (hread : ∀ a ∈ o, ∀ v, (f a).Means v → read? v = some a) (absent : α) :
    orElse? read? absent (Toml.get? key es) = some (o.getD absent) := by
  cases o with
  | none => rw [h.get?_of_not_mem (hnone rfl)]; rfl
  | some a =>
    obtain ⟨v, hv, hget⟩ := h.get?_of_mem hnodup (hmem a rfl)
    rw [hget, orElse?, hread a rfl v hv]
    rfl

theorem optional?_get? {α : Type} {key : String} {o : Option α} {f : α → Field}
    {read? : Value → Option α} (hnodup : (fields.map Prod.fst).Nodup)
    (hmem : ∀ a ∈ o, (key, f a) ∈ fields) (hnone : o = none → key ∉ fields.map Prod.fst)
    (hread : ∀ a ∈ o, ∀ v, (f a).Means v → read? v = some a) :
    optional? read? (Toml.get? key es) = some o := by
  cases o with
  | none => rw [h.get?_of_not_mem (hnone rfl)]; rfl
  | some a =>
    obtain ⟨v, hv, hget⟩ := h.get?_of_mem hnodup (hmem a rfl)
    rw [hget, optional?, hread a rfl v hv]
    rfl

end Gives

/-! ## Fields are read as they were given -/

theorem natural?_eq {bound n : Nat} (h : n < bound) : natural? bound (.integer n) = some n := by
  rw [natural?, if_pos ⟨Int.natCast_nonneg n, Int.ofNat_lt.2 h⟩, Int.toNat_natCast]

namespace Field.Means

variable {v : Value}

theorem count? {n : Nat} (h : (Field.natural n).Means v) (hn : n < 0x100000000) :
    Config.count? v = some n := by
  cases h
  exact natural?_eq hn

theorem seconds? {n : Nat} (h : (Field.natural n).Means v) (hn : n < 0x10000000000000000) :
    Config.seconds? v = some n := by
  cases h
  exact natural?_eq hn

theorem double? {x : Double} (h : (Field.amount x).Means v) : Config.double? v = some x := by
  cases h <;> rfl

theorem serviceClasses? {cs : List ServiceClass}
    (h : (Field.names (cs.map Section.className)).Means v) :
    Config.serviceClasses? v = some cs := by
  cases h
  have hclass (c : ServiceClass) : serviceClass? (.text (Section.className c)) = some c := by
    cases c <;> decide
  rw [Config.serviceClasses?]
  induction cs with
  | nil => rfl
  | cons c cs ih =>
    rw [List.map_cons, List.map_cons, List.mapM_cons, hclass, ih]
    rfl

theorem strategy? {s : RefreshStrategy} (h : (Field.name (Section.strategyName s)).Means v) :
    Config.strategy? v = some s := by
  cases h
  cases s <;> decide

end Field.Means

/-! ## Sections are read as they were given -/

variable {es : List (String × Value)}

theorem retry?_of_gives {c : RetryConfig} (h : Gives (Setting.retry c).fields es)
    (hc : (Setting.retry c).InRange) : retry? (.table es) = some c := by
  have hnodup := (Setting.retry c).keys_nodup
  obtain ⟨hattempts, hlongest, htimeout⟩ := hc
  have hattempts : (Toml.get? "max_attempts" es).bind count? = some c.maxAttempts :=
    h.bind_get? hnodup (f := .natural c.maxAttempts) (by simp [Setting.fields])
      fun v hv => hv.count? hattempts
  have hshortest : (Toml.get? "min_backoff_secs" es).bind double? = some c.minBackoffSeconds :=
    h.bind_get? hnodup (f := .amount c.minBackoffSeconds) (by simp [Setting.fields])
      fun v hv => hv.double?
  have hlongest : (Toml.get? "max_backoff_secs" es).bind seconds? = some c.maxBackoffSeconds :=
    h.bind_get? hnodup (f := .natural c.maxBackoffSeconds) (by simp [Setting.fields])
      fun v hv => hv.seconds? hlongest
  have htimeout :
      (Toml.get? "per_call_timeout_secs" es).bind seconds? = some c.perCallTimeoutSeconds :=
    h.bind_get? hnodup (f := .natural c.perCallTimeoutSeconds) (by simp [Setting.fields])
      fun v hv => hv.seconds? htimeout
  rw [ retry?, members?]
  simp only [List.map_cons, List.map_nil, Option.bind_eq_bind, Option.bind_some, hattempts,
    hshortest, hlongest, htimeout]
  rfl

theorem pool?_of_gives {c : ServiceClass} {p : PoolConfig Double}
    (h : Gives (Setting.pool c p).fields es) (hp : (Setting.pool c p).InRange) :
    pool? (.table es) = some p := by
  have hnodup := (Setting.pool c p).keys_nodup
  have hcapacity : (Toml.get? "capacity" es).bind count? = some p.capacity :=
    h.bind_get? hnodup (f := .natural p.capacity) (by simp [Setting.fields])
      fun v hv => hv.count? hp
  have hrefill : (Toml.get? "refill_per_sec" es).bind double? = some p.refillPerSecond :=
    h.bind_get? hnodup (f := .amount p.refillPerSecond) (by simp [Setting.fields])
      fun v hv => hv.double?
  rw [pool?, members?]
  simp only [List.map_cons, List.map_nil, Option.bind_eq_bind, Option.bind_some, hcapacity,
    hrefill]
  rfl

theorem sliding?_of_gives {lowest : Double} {recoverySuccesses : Nat}
    {classes : Option (List ServiceClass)}
    (h : Gives (Setting.sliding lowest recoverySuccesses classes).fields es)
    (hs : (Setting.sliding lowest recoverySuccesses classes).InRange) :
    sliding? (.table es) = some ⟨lowest, recoverySuccesses, classes.getD [.standard]⟩ := by
  have hnodup := (Setting.sliding lowest recoverySuccesses classes).keys_nodup
  have hlowest : (Toml.get? "floor_per_sec" es).bind double? = some lowest :=
    h.bind_get? hnodup (f := .amount lowest) (by simp [Setting.fields]) fun v hv => hv.double?
  have hsuccesses : (Toml.get? "recovery_successes" es).bind count? = some recoverySuccesses :=
    h.bind_get? hnodup (f := .natural recoverySuccesses) (by simp [Setting.fields])
      fun v hv => hv.count? hs
  have hclasses : orElse? serviceClasses? [.standard] (Toml.get? "classes" es) =
      some (classes.getD [.standard]) := by
    refine h.orElse?_get? (f := fun cs => .names (cs.map Section.className)) hnodup
      (fun cs hcs => ?_) (fun hnone => ?_) (fun cs _ v hv => hv.serviceClasses?) _
    · obtain rfl : classes = some cs := hcs
      simp [Setting.fields]
    · subst hnone
      simp [Setting.fields]
  rw [sliding?, members?]
  simp only [List.map_cons, List.map_nil, Option.bind_eq_bind, Option.bind_some, hlowest,
    hsuccesses, hclasses]
  rfl

theorem cache?_of_gives {interval : Option Nat} {strategy : Option RefreshStrategy}
    {pageSize : Option Nat} (h : Gives (Setting.cache interval strategy pageSize).fields es)
    (hc : (Setting.cache interval strategy pageSize).InRange) :
    cache? (.table es) = some ⟨interval.getD CacheConfig.builtin.refreshIntervalSeconds,
      strategy.getD CacheConfig.builtin.strategy, pageSize⟩ := by
  have hnodup := (Setting.cache interval strategy pageSize).keys_nodup
  have hinterval : orElse? seconds? CacheConfig.builtin.refreshIntervalSeconds
      (Toml.get? "refresh_interval_secs" es) =
      some (interval.getD CacheConfig.builtin.refreshIntervalSeconds) := by
    refine h.orElse?_get? (f := .natural) hnodup (fun n hn => ?_) (fun hnone => ?_)
      (fun n hn v hv => hv.seconds? (hc.1 n hn)) _
    · obtain rfl : interval = some n := hn
      simp [Setting.fields]
    · subst hnone
      simp [Setting.fields]
  have hstrategy : orElse? strategy? CacheConfig.builtin.strategy (Toml.get? "strategy" es) =
      some (strategy.getD CacheConfig.builtin.strategy) := by
    refine h.orElse?_get? (f := fun s => .name (Section.strategyName s)) hnodup (fun s hs => ?_)
      (fun hnone => ?_) (fun s _ v hv => hv.strategy?) _
    · obtain rfl : strategy = some s := hs
      simp [Setting.fields]
    · subst hnone
      simp [Setting.fields]
  have hpageSize : optional? count? (Toml.get? "page_size" es) = some pageSize := by
    refine h.optional?_get? (f := .natural) hnodup (fun n hn => ?_) (fun hnone => ?_)
      (fun n hn v hv => hv.count? (hc.2 n hn))
    · obtain rfl : pageSize = some n := hn
      simp [Setting.fields]
    · subst hnone
      simp [Setting.fields]
  rw [cache?, members?]
  simp only [List.map_cons, List.map_nil, Option.bind_eq_bind, Option.bind_some, hinterval,
    hstrategy, hpageSize]
  rfl

/-! ## Documents -/

/-- A document that holds what sections set, and nothing apart from them. -/
structure Describes (document : List (String × Value)) (settings : List Setting) : Prop where
  given : ∀ s ∈ settings, ∃ es, Gives s.fields es ∧
    Toml.valueAt? s.path (some (.table document)) = some (some (.table es))
  vacant : ∀ q ≠ [], (∀ s ∈ settings, Toml.Apart q s.path) →
    Toml.valueAt? q (some (.table document)) = some none

/-- **Sections make a document that holds what they set, in whatever order they are written.** -/
theorem exists_describes {settings : List Setting} {sections : List Toml.Section}
    (hs : List.Forall₂ Setting.WrittenAs settings sections)
    (hpaths : (settings.map Setting.path).Nodup) :
    ∃ document, Toml.build? (sections.flatMap Toml.Section.statements) = some document ∧
      Describes document settings := by
  have hback : List.Forall₂ (flip Setting.WrittenAs) sections settings := List.Forall₂.flip hs
  have hvalid : ∀ t ∈ sections, t.Valid := fun t ht => by
    obtain ⟨s, -, hst⟩ := exists_of_forall₂ hback ht
    exact ⟨hst.path_eq ▸ s.path_ne_nil, hst.gives.keys_perm.nodup_iff.2 s.keys_nodup⟩
  have hapart : sections.Pairwise fun t t' => Toml.Apart t.path t'.path := by
    rw [← List.pairwise_map, map_eq_of_forall₂ hback fun t s hst => hst.path_eq]
    refine hpaths.imp_of_mem fun {p q} hp hq hne => ?_
    obtain ⟨s, -, rfl⟩ := List.mem_map.1 hp
    obtain ⟨s', -, rfl⟩ := List.mem_map.1 hq
    exact Setting.apart_of_ne s.path_mem s'.path_mem hne
  obtain ⟨document, hbuild, hstands, hvacant⟩ := Toml.build?_sections hvalid hapart
  refine ⟨document, hbuild, fun s hmem => ?_, fun q hq hall => hvacant q hq fun t ht => ?_⟩
  · obtain ⟨t, ht, hst⟩ := exists_of_forall₂ hs hmem
    exact ⟨t.entries, hst.gives, hst.path_eq ▸ hstands t ht⟩
  · obtain ⟨s, hmem, hst⟩ := exists_of_forall₂ hback ht
    rw [hst.path_eq]
    exact hall s hmem

/-! ## Configurations -/

/-- A limiter is what sections set.  Its adaptive pools are built in as long as no section of it is
written, and are left out with the first one. -/
structure LimiterFollows (l : LimiterConfig Double) (settings : List Setting) : Prop where
  pool_eq : ∀ c p, .pool c p ∈ settings → l.pool c = p
  pool_builtin : ∀ c, (∀ p, .pool c p ∉ settings) → l.pool c = LimiterConfig.builtin.pool c
  sliding_eq : ∀ lowest recoverySuccesses classes,
    .sliding lowest recoverySuccesses classes ∈ settings →
      l.sliding = some ⟨lowest, recoverySuccesses, classes.getD [.standard]⟩
  sliding_builtin : (∀ s ∈ settings, ¬s.IsLimiter) → l.sliding = LimiterConfig.builtin.sliding
  sliding_none_iff : l.sliding = none ↔ (∃ s ∈ settings, s.IsLimiter) ∧
    ∀ lowest recoverySuccesses classes, .sliding lowest recoverySuccesses classes ∉ settings

/-- A configuration is what sections set, and is built in apart from that. -/
structure Follows (c : Config) (settings : List Setting) : Prop where
  retry_eq : ∀ r, .retry r ∈ settings → c.retry = some r
  retry_none : (∀ r, .retry r ∉ settings) → c.retry = none
  limiter : LimiterFollows c.limiter settings
  cache_eq : ∀ interval strategy pageSize, .cache interval strategy pageSize ∈ settings →
    c.urlCache = ⟨interval.getD 3600, strategy.getD .exclusive, pageSize⟩
  cache_builtin : (∀ interval strategy pageSize, .cache interval strategy pageSize ∉ settings) →
    c.urlCache = CacheConfig.builtin

section Optional

variable {α : Type} {P : α → Prop} {v? : Option Value} {f : Value → Option α}
  (hgiven : ∀ a, P a → ∃ v, v? = some v ∧ f v = some a)
  (habsent : (∀ a, ¬P a) → v? = none)

include hgiven habsent

/-- What is read of a part that may be left out. -/
theorem exists_optional? : ∃ r, optional? f v? = some r ∧ (∀ a, P a → r = some a) ∧
    ((∀ a, ¬P a) → r = none) := by
  by_cases hsome : ∃ a, P a
  · obtain ⟨a, ha⟩ := hsome
    obtain ⟨v, rfl, hv⟩ := hgiven a ha
    refine ⟨some a, by rw [optional?, hv]; rfl, fun b hb => ?_, fun hno => (hno a ha).elim⟩
    obtain ⟨w, hw, hb⟩ := hgiven b hb
    cases hw
    exact hv.symm.trans hb
  · have hno : ∀ a, ¬P a := fun a ha => hsome ⟨a, ha⟩
    rw [habsent hno]
    exact ⟨none, rfl, fun a ha => (hno a ha).elim, fun _ => rfl⟩

/-- What is read of a part that may be left out for a value of its own. -/
theorem exists_orElse? (absent : α) : ∃ r, orElse? f absent v? = some r ∧
    (∀ a, P a → r = a) ∧ ((∀ a, ¬P a) → r = absent) := by
  obtain ⟨r, hr, hsome, hnone⟩ := exists_optional? hgiven habsent
  refine ⟨r.getD absent, ?_, fun a ha => by rw [hsome a ha]; rfl, fun hno => by rw [hnone hno]; rfl⟩
  cases v? with
  | none =>
    cases hr
    rfl
  | some v =>
    rw [optional?] at hr
    obtain ⟨a, ha, rfl⟩ := Option.map_eq_some_iff.1 hr
    exact ha

end Optional

namespace Describes

variable {document : List (String × Value)} {settings : List Setting}
  (h : Describes document settings)

include h

/-- Nothing stands at the path of a section that is not written. -/
theorem valueAt?_of_absent {q : List String} (hq : q ∈ Setting.paths)
    (habsent : ∀ s ∈ settings, s.path ≠ q) :
    Toml.valueAt? q (some (.table document)) = some none := by
  refine h.vacant q ?_ fun s hs => Setting.apart_of_ne hq s.path_mem (habsent s hs).symm
  rintro rfl
  exact absurd hq (by decide)

/-- The parts of the limiter stand in one table. -/
theorem exists_limiter (hlimiter : ∃ s ∈ settings, s.IsLimiter) :
    ∃ members, Toml.get? "limiter" document = some (.table members) ∧
      ∀ k, Toml.valueAt? ["limiter", k] (some (.table document)) =
        some (Toml.get? k members) := by
  obtain ⟨s, hs, hlimiter⟩ := hlimiter
  obtain ⟨es, -, hat⟩ := h.given s hs
  obtain ⟨k, p, hpath⟩ : ∃ k p, s.path = "limiter" :: k :: p := by
    cases s with
    | pool c p => exact ⟨_, _, rfl⟩
    | sliding lowest n classes => exact ⟨_, _, rfl⟩
    | _ => simp [Setting.IsLimiter, Setting.path] at hlimiter
  rw [hpath, Toml.valueAt?] at hat
  cases hget : Toml.get? "limiter" document with
  | none =>
    rw [hget] at hat
    cases hat
  | some v =>
    rw [hget] at hat
    cases v with
    | table members =>
      refine ⟨members, rfl, fun k => ?_⟩
      rw [Toml.valueAt?, hget]
      rfl
    | _ => cases hat

variable (hrange : ∀ s ∈ settings, s.InRange)

include hrange

theorem exists_retry : ∃ r, optional? retry? (Toml.get? "retry" document) = some r ∧
    (∀ c, .retry c ∈ settings → r = some c) ∧ ((∀ c, .retry c ∉ settings) → r = none) := by
  refine exists_optional? (fun c hc => ?_) fun hno => Option.some_inj.1
    (h.valueAt?_of_absent (q := ["retry"]) (by decide) fun s hs hpath => ?_)
  · obtain ⟨es, hes, hat⟩ := h.given _ hc
    exact ⟨_, Option.some_inj.1 hat, retry?_of_gives hes (hrange _ hc)⟩
  · obtain ⟨c, rfl⟩ := Setting.eq_retry_of_path hpath
    exact hno c hs

theorem exists_cache : ∃ r,
    orElse? cache? CacheConfig.builtin (Toml.get? "url_cache" document) = some r ∧
      (∀ interval strategy pageSize, .cache interval strategy pageSize ∈ settings →
        r = ⟨interval.getD 3600, strategy.getD .exclusive, pageSize⟩) ∧
      ((∀ interval strategy pageSize, .cache interval strategy pageSize ∉ settings) →
        r = CacheConfig.builtin) := by
  obtain ⟨r, hr, hgiven, habsent⟩ := exists_orElse? (f := cache?)
    (P := fun c => ∃ interval strategy pageSize, .cache interval strategy pageSize ∈ settings ∧
      c = ⟨interval.getD 3600, strategy.getD .exclusive, pageSize⟩)
    (fun c ⟨interval, strategy, pageSize, hc, heq⟩ => by
      obtain ⟨es, hes, hat⟩ := h.given _ hc
      exact ⟨_, Option.some_inj.1 hat, heq ▸ cache?_of_gives hes (hrange _ hc)⟩)
    (fun hno => Option.some_inj.1
      (h.valueAt?_of_absent (q := ["url_cache"]) (by decide) fun s hs hpath => by
        obtain ⟨interval, strategy, pageSize, rfl⟩ := Setting.eq_cache_of_path hpath
        exact hno _ ⟨_, _, _, hs, rfl⟩)) CacheConfig.builtin
  exact ⟨r, hr, fun _ _ _ hc => hgiven _ ⟨_, _, _, hc, rfl⟩,
    fun hno => habsent fun _ ⟨_, _, _, hc, _⟩ => hno _ _ _ hc⟩

section Limiter

variable {members : List (String × Value)} (hmembers : ∀ k,
  Toml.valueAt? ["limiter", k] (some (.table document)) = some (Toml.get? k members))

include hmembers

theorem exists_pool (c : ServiceClass) (absent : PoolConfig Double) : ∃ r,
    orElse? pool? absent (Toml.get? (Setting.poolName c) members) = some r ∧
      (∀ p, .pool c p ∈ settings → r = p) ∧ ((∀ p, .pool c p ∉ settings) → r = absent) := by
  have hpath : ["limiter", Setting.poolName c] ∈ Setting.paths := by cases c <;> decide
  refine exists_orElse? (fun p hp => ?_) (fun hno => ?_) absent
  · obtain ⟨es, hes, hat⟩ := h.given _ hp
    exact ⟨_, Option.some_inj.1 ((hmembers _).symm.trans hat), pool?_of_gives hes (hrange _ hp)⟩
  · refine Option.some_inj.1 ((hmembers _).symm.trans
      (h.valueAt?_of_absent hpath fun s hs hpath => ?_))
    obtain ⟨p, rfl⟩ := Setting.eq_pool_of_path hpath
    exact hno p hs

theorem exists_sliding : ∃ r, optional? sliding? (Toml.get? "sliding" members) = some r ∧
    (∀ lowest recoverySuccesses classes,
      .sliding lowest recoverySuccesses classes ∈ settings →
        r = some ⟨lowest, recoverySuccesses, classes.getD [.standard]⟩) ∧
    ((∀ lowest recoverySuccesses classes,
      .sliding lowest recoverySuccesses classes ∉ settings) → r = none) := by
  obtain ⟨r, hr, hgiven, habsent⟩ := exists_optional? (f := sliding?)
    (P := fun c => ∃ lowest recoverySuccesses classes,
      .sliding lowest recoverySuccesses classes ∈ settings ∧
        c = ⟨lowest, recoverySuccesses, classes.getD [.standard]⟩)
    (fun c ⟨lowest, recoverySuccesses, classes, hc, heq⟩ => by
      obtain ⟨es, hes, hat⟩ := h.given _ hc
      exact ⟨_, Option.some_inj.1 ((hmembers _).symm.trans hat),
        heq ▸ sliding?_of_gives hes (hrange _ hc)⟩)
    (fun hno => Option.some_inj.1 ((hmembers _).symm.trans
      (h.valueAt?_of_absent (by decide) fun s hs hpath => by
        obtain ⟨lowest, recoverySuccesses, classes, rfl⟩ := Setting.eq_sliding_of_path hpath
        exact hno _ ⟨_, _, _, hs, rfl⟩)))
  exact ⟨r, hr, fun _ _ _ hc => hgiven _ ⟨_, _, _, hc, rfl⟩,
    fun hno => habsent fun _ ⟨_, _, _, hc, _⟩ => hno _ _ _ hc⟩

end Limiter

theorem exists_limiterFollows : ∃ l,
    orElse? limiter? LimiterConfig.builtin (Toml.get? "limiter" document) = some l ∧
      LimiterFollows l settings := by
  by_cases hlimiter : ∃ s ∈ settings, s.IsLimiter
  · obtain ⟨members, hget, hmembers⟩ := h.exists_limiter hlimiter
    obtain ⟨standard, hstandard, hstandard_eq, hstandard_builtin⟩ :=
      h.exists_pool hrange hmembers .standard LimiterConfig.builtin.standard
    obtain ⟨bulk, hbulk, hbulk_eq, hbulk_builtin⟩ :=
      h.exists_pool hrange hmembers .bulkContainer LimiterConfig.builtin.bulk
    obtain ⟨sliding, hsliding, hsliding_eq, hsliding_none⟩ := h.exists_sliding hrange hmembers
    refine ⟨⟨standard, bulk, sliding⟩, ?_, fun c => ?_, fun c => ?_, hsliding_eq, ?_, ?_⟩
    · rw [hget, orElse?, limiter?, members?]
      simp only [Setting.poolName] at hstandard hbulk
      simp only [List.map_cons, List.map_nil, Option.bind_eq_bind, Option.bind_some, hstandard,
        hbulk, hsliding]
      rfl
    · cases c with
      | standard => exact hstandard_eq
      | bulkContainer => exact hbulk_eq
    · cases c with
      | standard => exact hstandard_builtin
      | bulkContainer => exact hbulk_builtin
    · obtain ⟨s, hs, hmem⟩ := hlimiter
      exact fun hno => (hno s hs hmem).elim
    · refine ⟨fun hnone => ⟨hlimiter, fun _ _ _ hc => ?_⟩, fun ⟨_, hno⟩ => hsliding_none hno⟩
      rw [hsliding_eq _ _ _ hc] at hnone
      cases hnone
  · have hno : ∀ s ∈ settings, ¬s.IsLimiter := fun s hs hmem => hlimiter ⟨s, hs, hmem⟩
    have hget : Toml.get? "limiter" document = none := by
      refine Option.some_inj.1 (h.vacant ["limiter"] (by simp) fun s hs => ?_)
      cases s with
      | retry c => exact .inl (by decide)
      | cache interval strategy pageSize => exact .inl (by decide)
      | pool c p => exact (hno _ hs rfl).elim
      | sliding lowest n classes => exact (hno _ hs rfl).elim
    refine ⟨.builtin, by rw [hget]; rfl, fun c p hc => (hno _ hc rfl).elim, fun _ _ => rfl,
      fun _ _ _ hc => (hno _ hc rfl).elim, fun _ => rfl, fun hnone => ?_, fun hsome => ?_⟩
    · cases hnone
    · exact (hlimiter hsome.1).elim

/-- A document that holds what sections set is a configuration that follows them. -/
theorem ofToml?_eq : ∃ c, ofToml? document = some c ∧ Follows c settings := by
  obtain ⟨retry, hretry, hretry_eq, hretry_none⟩ := h.exists_retry hrange
  obtain ⟨limiter, hlimiter, hfollows⟩ := h.exists_limiterFollows hrange
  obtain ⟨cache, hcache, hcache_eq, hcache_builtin⟩ := h.exists_cache hrange
  refine ⟨⟨retry, limiter, cache⟩, ?_, hretry_eq, hretry_none, hfollows, hcache_eq,
    hcache_builtin⟩
  simp only [ofToml?, hretry, hlimiter, hcache, Option.bind_eq_bind, Option.bind_some]
  rfl

end Describes

/-- **Sections are loaded independently of each other**, in whatever order and in whatever way they
are written: each sets its own part, and what is not written is built in. -/
theorem load_of_settingsText {settings : List Setting} (hrange : ∀ s ∈ settings, s.InRange)
    (hpaths : (settings.map Setting.path).Nodup) {cs : List Char} (h : SettingsText settings cs) :
    ∃ c, load (some (Utf8.encode cs)) = .ok c ∧ Follows c settings := by
  obtain ⟨hs, hdocument⟩ := h
  obtain ⟨document, hbuild, hdescribes⟩ := exists_describes hs hpaths
  obtain ⟨c, hc, hfollows⟩ := hdescribes.ofToml?_eq hrange
  refine ⟨c, ?_, hfollows⟩
  have hparse : Config.parse? cs = some c := by
    rw [Config.parse?, hdocument.parse?_eq, hbuild, Option.bind_some, hc]
  have hload (bytes : Bytes) : load (some bytes) =
      ((Utf8.decode? bytes).elim (.error .notText) .ok >>= fun cs =>
        (Config.parse? cs).elim (.error .malformed) .ok) := rfl
  rw [hload, Utf8.decode?_encode]
  change (Config.parse? cs).elim (Except.error LoadError.malformed) Except.ok = .ok c
  rw [hparse]
  rfl

end DriveDelta.Config
