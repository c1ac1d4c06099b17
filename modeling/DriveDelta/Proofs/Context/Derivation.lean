import Mathlib.Data.List.Induction
import DriveDelta.Proofs.Rehearsal.Contexts

/-!
# How contexts are derived

Contexts are made from nothing or from one another, and are cancelled, in any order and at any
times.  What a context is can be read off the path on which it was derived: its token and those
above it, the deadlines that were given on the way, and the options that were written.

## What is here

* `Forest.line`, a token with those above it, and what adding and cancelling tokens do to it;
* `Family`, contexts with the stage that they are on, and `Family.step`, one event;
* `Path`, how a context was derived, and `Annals`, the paths of all contexts, told from the events
  alone;
* `Family.Follows`, which says that a family is what the annals say, and
  `Family.contexts_follow_paths`.
-/

set_option autoImplicit false

namespace DriveDelta

/-! ## Tokens and those above them -/

namespace Forest

/-- A token and those above it, from the nearest one on. -/
def lineIn : List TokenNode → Nat → List Nat
  | [], _ => []
  | n :: older, token =>
    if token = older.length then token :: (n.parent.map (lineIn older)).getD []
    else lineIn older token

/-- A token and those above it. -/
def line (f : Forest) (token : Nat) : List Nat := lineIn f.nodes token

/-- Tokens are made after those above them. -/
theorem lt_of_mem_lineIn {nodes : List TokenNode} {token t : Nat} (h : t ∈ lineIn nodes token) :
    t < nodes.length := by
  induction nodes generalizing token with
  | nil => exact absurd h (by simp [lineIn])
  | cons n older ih =>
    rw [lineIn] at h
    rw [List.length_cons]
    split at h
    · rcases List.mem_cons.1 h with rfl | h
      · omega
      · cases hp : n.parent with
        | none => exact absurd h (by simp [hp])
        | some parent =>
          rw [hp] at h
          exact Nat.lt_succ_of_lt (ih h)
    · exact Nat.lt_succ_of_lt (ih h)

theorem lineIn_cancelIn (nodes : List TokenNode) (token other : Nat) :
    lineIn (cancelIn nodes other) token = lineIn nodes token := by
  induction nodes generalizing token with
  | nil => rfl
  | cons n older ih =>
    rw [cancelIn]
    split
    · rfl
    · rw [lineIn, lineIn, length_cancelIn, ih]
      split
      · cases n.parent with
        | none => rfl
        | some parent => rw [Option.map_some, Option.map_some, ih]
      · rfl

theorem cancelledIn_cancelIn_iff (nodes : List TokenNode) (token other : Nat) :
    cancelledIn (cancelIn nodes other) token = true ↔
      cancelledIn nodes token = true ∨ other ∈ lineIn nodes token := by
  induction nodes generalizing token with
  | nil => simp [cancelIn, cancelledIn, lineIn]
  | cons n older ih =>
    by_cases hother : other = older.length
    · -- the latest token is cancelled, which is above no other
      rw [cancelIn, if_pos hother, cancelledIn, cancelledIn, lineIn]
      by_cases htoken : token = older.length
      · simp [htoken, hother]
      · have hno : other ∉ lineIn older token := fun hm =>
          absurd (lt_of_mem_lineIn hm) (by omega)
        simp [htoken, hno]
    · rw [cancelIn, if_neg hother, cancelledIn, cancelledIn, lineIn, length_cancelIn]
      by_cases htoken : token = older.length
      · rw [if_pos htoken, if_pos htoken, if_pos htoken]
        cases n.parent with
        | none => simp [htoken, hother]
        | some parent => simp [ih, htoken, hother, or_assoc]
      · rw [if_neg htoken, if_neg htoken, if_neg htoken]
        exact ih token

variable {f : Forest} {token : Nat}

@[simp] theorem line_cancel (f : Forest) (token other : Nat) :
    (f.cancel other).line token = f.line token := lineIn_cancelIn _ _ _

/-- Cancelling a token cancels those that it is above, itself among them. -/
theorem isCancelled_cancel_iff (f : Forest) (token other : Nat) :
    (f.cancel other).isCancelled token = true ↔
      f.isCancelled token = true ∨ other ∈ f.line token := cancelledIn_cancelIn_iff _ _ _

theorem line_add_of_lt (h : token < f.size) (parent : Option Nat) :
    (f.add parent).line token = f.line token := if_neg (Nat.ne_of_lt h)

/-- A new token comes before its parent and those above that. -/
theorem line_add_size (f : Forest) (parent : Option Nat) :
    (f.add parent).line f.size = f.size :: (parent.map f.line).getD [] := if_pos rfl

theorem isCancelled_add_of_lt (h : token < f.size) (parent : Option Nat) :
    (f.add parent).isCancelled token = f.isCancelled token := if_neg (Nat.ne_of_lt h)

/-- A new token is cancelled if its parent is, however long ago that was. -/
theorem isCancelled_add_size (f : Forest) (parent : Option Nat) :
    (f.add parent).isCancelled f.size = (parent.map f.isCancelled).getD false :=
  (if_pos rfl).trans (Bool.false_or _)

end Forest

/-! ## Families of contexts -/

/-- What deriving a context may set. -/
inductive Setting where
  | deadline (time : Nat)
  | timeout (span : Nat)
  | serviceClass (c : ServiceClass)
  | cost (n : Int)
  | retryBudget (b : RetryBudget)
  | sliding (enabled : Bool)

/-- The context that a setting derives from another; none if its deadline lies beyond the clock. -/
def Context.set? (c : Context) (now : Nat) : Setting → Option Context
  | .deadline time => some (c.withDeadline time)
  | .timeout span => c.withTimeout? now span
  | .serviceClass s => some (c.withServiceClass s)
  | .cost n => some (c.withCost n)
  | .retryBudget b => some (c.withRetryBudget b)
  | .sliding enabled => some (c.withSliding enabled)

/-- Contexts in the order in which they were made, by which they are numbered. -/
structure Family where
  stage : Stage := {}
  contexts : List Context := []

namespace Family

/-- What happens to contexts. -/
inductive Event where
  | root
  /-- A context is made whose token is below that of another. -/
  | child (parent : Nat)
  /-- A context is made that differs from another in one setting. -/
  | derive (parent : Nat) (setting : Setting)
  | cancel (number : Nat)
  /-- Time passes. -/
  | pass (span : Nat)

/-- A family with one more context. -/
def add (f : Family) (r : Stage × Context) : Family := ⟨r.1, f.contexts ++ [r.2]⟩

/-- One event; none if it is about a context that has not been made, or sets a deadline beyond the
clock. -/
def step (f : Family) : Event → Option Family
  | .root => some (f.add f.stage.root)
  | .child parent => f.contexts[parent]?.map fun c => f.add (f.stage.child c)
  | .derive parent setting =>
    f.contexts[parent]?.bind fun c =>
      (c.set? f.stage.now setting).map fun c' => f.add (f.stage, c')
  | .cancel number =>
    f.contexts[number]?.map fun c => { f with stage := f.stage.cancel c.token }
  | .pass span => some { f with stage := f.stage.moveTo (f.stage.now + span) }

end Family

/-! ## Paths -/

/-- One step of the way on which a context was derived. -/
inductive Link where
  /-- It got a token of its own, which is below those of the rest of the path. -/
  | token (name : Nat)
  | setting (made : Nat) (s : Setting)

/-- How a context was derived, the latest step first. -/
abbrev Path := List Link

namespace Path

/-- The token of the context and those above it, from the nearest one on. -/
def tokens (p : Path) : List Nat :=
  p.filterMap fun
    | .token name => some name
    | _ => none

/-- The deadlines that were given, the latest one first. -/
def deadlines (p : Path) : List Nat :=
  p.filterMap fun
    | .setting _ (.deadline time) => some time
    | .setting made (.timeout span) => some (made + span)
    | _ => none

/-- The options, each as it was last written. -/
def options (p : Path) : CallOptions where
  serviceClass := p.findSome? fun
    | .setting _ (.serviceClass c) => some c
    | _ => none
  cost := p.findSome? fun
    | .setting _ (.cost n) => some n
    | _ => none
  retryBudget := p.findSome? fun
    | .setting _ (.retryBudget b) => some b
    | _ => none
  sliding := (p.findSome? fun
    | .setting _ (.sliding enabled) => some enabled
    | _ => none).getD false

/-- The token of the one context is that of the other, or above it. -/
def Covers (q p : Path) : Prop := ∃ token, q.tokens.head? = some token ∧ token ∈ p.tokens

end Path

/-- The time, and the paths of all contexts. -/
structure Annals where
  now : Nat := 0
  /-- How many tokens were made. -/
  tokens : Nat := 0
  paths : List Path := []

namespace Annals

/-- The path of a context by its number. -/
def path (a : Annals) (number : Nat) : Path := (a.paths[number]?).getD []

/-- Write down what has happened. -/
def note (a : Annals) : Family.Event → Annals
  | .root => { a with tokens := a.tokens + 1, paths := a.paths ++ [[.token a.tokens]] }
  | .child parent =>
    { a with tokens := a.tokens + 1, paths := a.paths ++ [.token a.tokens :: a.path parent] }
  | .derive parent setting =>
    { a with paths := a.paths ++ [.setting a.now setting :: a.path parent] }
  | .cancel _ => a
  | .pass span => { a with now := a.now + span }

/-- The annals of some events. -/
def of (es : List Family.Event) : Annals := es.foldl note {}

theorem of_append (es : List Family.Event) (e : Family.Event) :
    of (es ++ [e]) = (of es).note e := by
  rw [of, List.foldl_append]
  rfl

variable {a b : Annals} {p : Path} {n : Nat}

theorem path_of_lt (h : b.paths = a.paths ++ [p]) (hn : n < a.paths.length) :
    b.path n = a.path n := by
  rw [path, path, h, List.getElem?_append_left hn]

theorem path_of_eq (h : b.paths = a.paths ++ [p]) (hn : n = a.paths.length) : b.path n = p := by
  rw [path, h, hn, List.getElem?_concat_length]
  rfl

end Annals

/-! ## A family is what its annals say -/

/-- A context that was derived on a path. -/
structure Context.DerivedOn (c : Context) (f : Forest) (p : Path) : Prop where
  line_eq : f.line c.token = p.tokens
  head_eq : p.tokens.head? = some c.token
  deadline_eq : c.deadline = p.deadlines.min?
  options_eq : c.options = p.options

namespace Context.DerivedOn

variable {c c' : Context} {f f' : Forest} {p : Path} {now : Nat} {s : Setting}

theorem token_lt (h : c.DerivedOn f p) : c.token < f.size := by
  have hmem : c.token ∈ f.line c.token := by
    rw [h.line_eq]
    exact List.mem_of_head? h.head_eq
  exact Forest.lt_of_mem_lineIn hmem

theorem of_forest (h : c.DerivedOn f p) (hf : f'.line c.token = f.line c.token) :
    c.DerivedOn f' p := ⟨hf.trans h.line_eq, h.head_eq, h.deadline_eq, h.options_eq⟩

/-- A root has a token of its own, and nothing is set for it. -/
theorem root (f : Forest) : ({ token := f.size } : Context).DerivedOn (f.add none)
    [.token f.size] := ⟨Forest.line_add_size f none, rfl, rfl, rfl⟩

/-- A child has a token below that of its parent, and all that is set for its parent. -/
theorem child (h : c.DerivedOn f p) :
    ({ c with token := f.size } : Context).DerivedOn (f.add (some c.token))
      (.token f.size :: p) := by
  refine ⟨?_, rfl, h.deadline_eq, h.options_eq⟩
  rw [Forest.line_add_size, Option.map_some, h.line_eq]
  rfl

/-- The deadline is the earliest of all that were given. -/
theorem deadline (h : c.DerivedOn f p) (time : Nat) :
    (c.withDeadline time).deadline = (time :: p.deadlines).min? := by
  rw [Context.withDeadline, h.deadline_eq, List.min?_cons]
  cases p.deadlines.min? with
  | none => rfl
  | some d => exact congrArg some (Nat.min_comm d time)

/-- A context that is derived by a setting has the same token, and that setting. -/
theorem set (h : c.DerivedOn f p) (hc : c.set? now s = some c') :
    c'.token = c.token ∧ c'.DerivedOn f (.setting now s :: p) := by
  cases s with
  | deadline time =>
    obtain rfl := Option.some_inj.1 hc
    exact ⟨rfl, h.line_eq, h.head_eq, h.deadline time, h.options_eq⟩
  | timeout span =>
    obtain ⟨time, ht, rfl⟩ := Option.map_eq_some_iff.1 hc
    obtain rfl : now + span = time := by
      simp only [Nanos.after?] at ht
      split at ht
      · exact Option.some_inj.1 ht
      · exact absurd ht (by simp)
    exact ⟨rfl, h.line_eq, h.head_eq, h.deadline _, h.options_eq⟩
  | serviceClass | cost | retryBudget | sliding =>
    obtain rfl := Option.some_inj.1 hc
    refine ⟨rfl, h.line_eq, h.head_eq, h.deadline_eq, ?_⟩
    simp only [Context.withServiceClass, Context.withCost, Context.withRetryBudget,
      Context.withSliding, h.options_eq]
    rfl

end Context.DerivedOn

namespace Family

/-- Whether an event can happen: it is about a context that has been made, and sets no deadline
beyond the clock. -/
def Event.Possible (f : Family) : Event → Prop
  | .root | .pass _ => True
  | .child number | .cancel number => number < f.contexts.length
  | .derive number setting =>
    number < f.contexts.length ∧
      ∀ span, setting = .timeout span → f.stage.now + span ≤ Nanos.lastInstant

/-- The family after some events. -/
def run? (es : List Event) : Option Family := es.foldlM step {}

theorem run?_append {es : List Event} {e : Event} {f' : Family} (h : run? (es ++ [e]) = some f') :
    ∃ f, run? es = some f ∧ f.step e = some f' := by
  rw [run?, List.foldlM_append] at h
  obtain ⟨f, hf, h⟩ := Option.bind_eq_some_iff.1 h
  exact ⟨f, hf, by simpa using h⟩

/-- A family is what its annals say. -/
structure Follows (f : Family) (es : List Event) : Prop where
  now_eq : f.stage.now = (Annals.of es).now
  size_eq : f.stage.forest.size = (Annals.of es).tokens
  length_eq : f.contexts.length = (Annals.of es).paths.length
  derived (n : Nat) (c : Context) : f.contexts[n]? = some c →
    c.DerivedOn f.stage.forest ((Annals.of es).path n)
  cancelled_iff (n : Nat) (c : Context) : f.contexts[n]? = some c →
    (f.stage.forest.isCancelled c.token = true ↔
      ∃ m, .cancel m ∈ es ∧ ((Annals.of es).path m).Covers ((Annals.of es).path n))
  made (m : Nat) : .cancel m ∈ es → m < f.contexts.length

namespace Follows

variable {f f' : Family} {es : List Event} {e : Event} {c : Context} {p : Path}

theorem start : ({} : Family).Follows [] where
  now_eq := rfl
  size_eq := rfl
  length_eq := rfl
  derived _ _ h := absurd h (by simp)
  cancelled_iff _ _ h := by simp at h
  made _ h := absurd h (by simp)

/-- The path of a context whose number was given out holds tokens that were made, and starts with
one. -/
theorem head_lt (h : f.Follows es) {n token : Nat} (hn : n < f.contexts.length)
    (ht : ((Annals.of es).path n).tokens.head? = some token) : token < f.stage.forest.size := by
  have hd := h.derived n _ (List.getElem?_eq_getElem hn)
  obtain rfl : f.contexts[n].token = token := Option.some_inj.1 (hd.head_eq.symm.trans ht)
  exact hd.token_lt

/-- What an event leaves of a family that makes a context: the tokens that are there stay below the
same tokens, and as cancelled as they were, so that only the new context is to be looked at. -/
theorem add (h : f.Follows es) (he : ∀ m, e ≠ .cancel m)
    (hcontexts : f'.contexts = f.contexts ++ [c])
    (hnow : f'.stage.now = (Annals.of (es ++ [e])).now)
    (hsize : f'.stage.forest.size = (Annals.of (es ++ [e])).tokens)
    (hpaths : (Annals.of (es ++ [e])).paths = (Annals.of es).paths ++ [p])
    (hline : ∀ t < f.stage.forest.size, f'.stage.forest.line t = f.stage.forest.line t)
    (hcancelled : ∀ t < f.stage.forest.size,
      f'.stage.forest.isCancelled t = f.stage.forest.isCancelled t)
    (hc : c.DerivedOn f'.stage.forest p)
    (hcc : f'.stage.forest.isCancelled c.token = true ↔
      ∃ m, .cancel m ∈ es ∧ ((Annals.of es).path m).Covers p) : f'.Follows (es ++ [e]) := by
  have hmem (m : Nat) : .cancel m ∈ es ++ [e] ↔ .cancel m ∈ es := by
    simp [Ne.symm (he m)]
  have hold {n : Nat} (hn : n < f.contexts.length) :
      (Annals.of (es ++ [e])).path n = (Annals.of es).path n :=
    Annals.path_of_lt hpaths (h.length_eq ▸ hn)
  have hnew : (Annals.of (es ++ [e])).path f.contexts.length = p :=
    Annals.path_of_eq hpaths h.length_eq
  -- whatever was cancelled was made before, and so has the path that it had
  have hcovers (q : Path) :
      (∃ m, .cancel m ∈ es ++ [e] ∧ ((Annals.of (es ++ [e])).path m).Covers q) ↔
        ∃ m, .cancel m ∈ es ∧ ((Annals.of es).path m).Covers q := by
    refine exists_congr fun m => ?_
    rw [hmem m]
    refine and_congr_right fun hm => ?_
    rw [hold (h.made m hm)]
  have hsplit {n : Nat} {c' : Context} (hn : f'.contexts[n]? = some c') :
      f.contexts[n]? = some c' ∧ n < f.contexts.length ∨ c' = c ∧ n = f.contexts.length := by
    rw [hcontexts] at hn
    rcases Nat.lt_trichotomy n f.contexts.length with hlt | heq | hgt
    · rw [List.getElem?_append_left hlt] at hn
      exact .inl ⟨hn, hlt⟩
    · rw [heq, List.getElem?_concat_length] at hn
      exact .inr ⟨(Option.some_inj.1 hn).symm, heq⟩
    · rw [List.getElem?_eq_none (by rw [List.length_append]; exact hgt)] at hn
      exact absurd hn (by simp)
  refine ⟨hnow, hsize, ?_, fun n c' hn => ?_, fun n c' hn => ?_, fun m hm => ?_⟩
  · rw [hcontexts, hpaths, List.length_append, List.length_append, h.length_eq]
    rfl
  · rcases hsplit hn with ⟨hn, hlt⟩ | ⟨rfl, rfl⟩
    · rw [hold hlt]
      exact (h.derived n c' hn).of_forest (hline _ (h.derived n c' hn).token_lt)
    · rw [hnew]
      exact hc
  · rw [hcovers]
    rcases hsplit hn with ⟨hn, hlt⟩ | ⟨rfl, rfl⟩
    · rw [hold hlt, hcancelled _ (h.derived n c' hn).token_lt]
      exact h.cancelled_iff n c' hn
    · rw [hnew]
      exact hcc
  · rw [hcontexts, List.length_append]
    exact Nat.lt_add_right _ (h.made m ((hmem m).1 hm))

/-- No context whose token was made before is above a token that is new. -/
theorem covers_token (h : f.Follows es) (p : Path) :
    (∃ m, .cancel m ∈ es ∧ ((Annals.of es).path m).Covers (.token f.stage.forest.size :: p)) ↔
      ∃ m, .cancel m ∈ es ∧ ((Annals.of es).path m).Covers p := by
  refine exists_congr fun m => and_congr_right fun hm => exists_congr fun token => ?_
  refine and_congr_right fun ht => ?_
  have hlt := h.head_lt (h.made m hm) ht
  show token ∈ f.stage.forest.size :: p.tokens ↔ token ∈ p.tokens
  simp [Nat.ne_of_lt hlt]

theorem root (h : f.Follows es) : (f.add f.stage.root).Follows (es ++ [.root]) := by
  have hsize := h.size_eq
  refine h.add (p := [.token f.stage.forest.size]) (by simp) rfl ?_ ?_ ?_
    (fun t ht => Forest.line_add_of_lt ht none) (fun t ht => Forest.isCancelled_add_of_lt ht none)
    (Context.DerivedOn.root _) ?_
  · rw [Annals.of_append]
    exact h.now_eq
  · rw [Annals.of_append]
    exact congrArg (· + 1) hsize
  · rw [Annals.of_append, hsize]
    rfl
  · rw [h.covers_token]
    refine iff_of_false ?_ ?_
    · show ¬ (f.stage.forest.add none).isCancelled f.stage.forest.size = true
      rw [Forest.isCancelled_add_size]
      exact Bool.false_ne_true
    · rintro ⟨m, -, token, -, ht⟩
      exact absurd ht List.not_mem_nil

theorem child (h : f.Follows es) {number : Nat} (hn : f.contexts[number]? = some c) :
    (f.add (f.stage.child c)).Follows (es ++ [.child number]) := by
  have hsize := h.size_eq
  have hd := h.derived number c hn
  refine h.add (p := .token f.stage.forest.size :: (Annals.of es).path number) (by simp) rfl ?_ ?_
    ?_ (fun t ht => Forest.line_add_of_lt ht _) (fun t ht => Forest.isCancelled_add_of_lt ht _)
    hd.child ?_
  · rw [Annals.of_append]
    exact h.now_eq
  · rw [Annals.of_append]
    exact congrArg (· + 1) hsize
  · rw [Annals.of_append, hsize]
    rfl
  · rw [h.covers_token, ← h.cancelled_iff number c hn]
    show (f.stage.forest.add (some c.token)).isCancelled f.stage.forest.size = true ↔ _
    rw [Forest.isCancelled_add_size]
    rfl

theorem derive (h : f.Follows es) {number : Nat} {s : Setting} {c' : Context}
    (hn : f.contexts[number]? = some c) (hc' : c.set? f.stage.now s = some c') :
    (f.add (f.stage, c')).Follows (es ++ [.derive number s]) := by
  obtain ⟨htoken, hd⟩ := (h.derived number c hn).set hc'
  refine h.add (p := .setting f.stage.now s :: (Annals.of es).path number) (by simp) rfl ?_ ?_ ?_
    (fun _ _ => rfl) (fun _ _ => rfl) hd ?_
  · rw [Annals.of_append]
    exact h.now_eq
  · rw [Annals.of_append]
    exact h.size_eq
  · rw [Annals.of_append, h.now_eq]
    rfl
  · rw [htoken]
    exact h.cancelled_iff number c hn

theorem cancel (h : f.Follows es) {number : Nat} (hn : f.contexts[number]? = some c) :
    Follows { f with stage := f.stage.cancel c.token } (es ++ [.cancel number]) := by
  have hannals : Annals.of (es ++ [.cancel number]) = Annals.of es := Annals.of_append _ _
  have hlt : number < f.contexts.length := (List.getElem?_eq_some_iff.1 hn).1
  refine ⟨?_, ?_, ?_, fun n c' hc' => ?_, fun n c' hc' => ?_, fun m hm => ?_⟩
  · rw [hannals]
    exact h.now_eq
  · rw [hannals, ← h.size_eq]
    exact Forest.length_cancelIn _ _
  · rw [hannals]
    exact h.length_eq
  · rw [hannals]
    exact (h.derived n c' hc').of_forest (Forest.line_cancel _ _ _)
  · have hd := h.derived n c' hc'
    have hcovers : c.token ∈ f.stage.forest.line c'.token ↔
        ((Annals.of es).path number).Covers ((Annals.of es).path n) := by
      rw [Path.Covers, (h.derived number c hn).head_eq, hd.line_eq]
      simp
    rw [hannals]
    show (f.stage.forest.cancel c.token).isCancelled c'.token = true ↔ _
    rw [Forest.isCancelled_cancel_iff, h.cancelled_iff n c' hc', hcovers]
    constructor
    · rintro (⟨m, hm, hcov⟩ | hcov)
      · exact ⟨m, List.mem_append_left _ hm, hcov⟩
      · exact ⟨number, List.mem_append_right _ (List.mem_singleton.2 rfl), hcov⟩
    · rintro ⟨m, hm, hcov⟩
      rcases List.mem_append.1 hm with hm | hm
      · exact .inl ⟨m, hm, hcov⟩
      · cases List.mem_singleton.1 hm
        exact .inr hcov
  · rcases List.mem_append.1 hm with hm | hm
    · exact h.made m hm
    · cases List.mem_singleton.1 hm
      exact hlt

theorem pass (h : f.Follows es) (span : Nat) :
    Follows { f with stage := f.stage.moveTo (f.stage.now + span) } (es ++ [.pass span]) := by
  have hmem (m : Nat) : Event.cancel m ∈ es ++ [.pass span] ↔ .cancel m ∈ es := by simp
  have hpath (n : Nat) : (Annals.of (es ++ [.pass span])).path n = (Annals.of es).path n := by
    rw [Annals.of_append]
    rfl
  refine ⟨?_, ?_, ?_, fun n c' hc' => ?_, fun n c' hc' => ?_, fun m hm => ?_⟩
  · rw [Annals.of_append]
    exact congrArg (· + span) h.now_eq
  · rw [Annals.of_append]
    exact h.size_eq
  · rw [Annals.of_append]
    exact h.length_eq
  · rw [hpath]
    exact h.derived n c' hc'
  · simp only [hmem, hpath]
    exact h.cancelled_iff n c' hc'
  · exact h.made m ((hmem m).1 hm)

/-- One more event. -/
theorem step (h : f.Follows es) (hs : f.step e = some f') : f'.Follows (es ++ [e]) := by
  cases e with
  | root =>
    obtain rfl := Option.some_inj.1 hs
    exact h.root
  | child number =>
    obtain ⟨c, hn, rfl⟩ := Option.map_eq_some_iff.1 hs
    exact h.child hn
  | derive number s =>
    obtain ⟨c, hn, hs⟩ := Option.bind_eq_some_iff.1 hs
    obtain ⟨c', hc', rfl⟩ := Option.map_eq_some_iff.1 hs
    exact h.derive hn hc'
  | cancel number =>
    obtain ⟨c, hn, rfl⟩ := Option.map_eq_some_iff.1 hs
    exact h.cancel hn
  | pass span =>
    obtain rfl := Option.some_inj.1 hs
    exact h.pass span

/-- All events, by induction on how many there were. -/
theorem run (h : run? es = some f) : f.Follows es := by
  induction es using List.reverseRecOn generalizing f with
  | nil =>
    obtain rfl := Option.some_inj.1 h
    exact start
  | append_singleton es e ih =>
    obtain ⟨f₀, hf₀, hs⟩ := run?_append h
    exact (ih hf₀).step hs

end Follows

/-! ## Why a context is done -/

/-- Whether a context was cancelled, by its own token or by one above it. -/
def WasCancelled (es : List Event) (n : Nat) : Prop :=
  ∃ m, .cancel m ∈ es ∧ ((Annals.of es).path m).Covers ((Annals.of es).path n)

/-- Whether the time has come that is the earliest of the deadlines given to a context. -/
def IsLate (es : List Event) (n : Nat) : Prop :=
  ∃ d, ((Annals.of es).path n).deadlines.min? = some d ∧ d ≤ (Annals.of es).now

section Status

variable {es : List Event} {f f' : Family} {e : Event} {n : Nat} {c : Context}

theorem Follows.status_eq (h : f.Follows es) (hc : f.contexts[n]? = some c) :
    WasCancelled es n ∧ f.stage.status c = some .cancelled ∨
      ¬ WasCancelled es n ∧ IsLate es n ∧ f.stage.status c = some .deadlineExceeded ∨
      ¬ WasCancelled es n ∧ ¬ IsLate es n ∧ f.stage.status c = none := by
  have hcancelled := h.cancelled_iff n c hc
  have hdeadline := (h.derived n c hc).deadline_eq
  rw [Stage.status, Context.status, h.now_eq, hdeadline]
  by_cases hwas : WasCancelled es n
  · exact .inl ⟨hwas, if_pos (hcancelled.2 hwas)⟩
  · rw [if_neg (mt hcancelled.1 hwas)]
    right
    unfold IsLate
    cases ((Annals.of es).path n).deadlines.min? with
    | none => exact .inr ⟨hwas, by simp, rfl⟩
    | some d =>
      by_cases hd : d ≤ (Annals.of es).now
      · exact .inl ⟨hwas, ⟨d, rfl, hd⟩, if_pos hd⟩
      · exact .inr ⟨hwas, by simpa using hd, if_neg hd⟩

theorem exists_step_iff : (∃ f', f.step e = some f') ↔ e.Possible f := by
  have hsome (n : Nat) : (∃ c, f.contexts[n]? = some c) ↔ n < f.contexts.length := by
    rw [← Option.isSome_iff_exists]
    simp
  cases e with
  | root | pass => exact iff_of_true ⟨_, rfl⟩ trivial
  | child n | cancel n =>
    rw [Event.Possible, ← hsome]
    constructor
    · rintro ⟨f', hf'⟩
      obtain ⟨c, hc, -⟩ := Option.map_eq_some_iff.1 hf'
      exact ⟨c, hc⟩
    · rintro ⟨c, hc⟩
      exact ⟨_, Option.map_eq_some_iff.2 ⟨c, hc, rfl⟩⟩
  | derive n s =>
    rw [Event.Possible, ← hsome]
    constructor
    · rintro ⟨f', hf'⟩
      obtain ⟨c, hc, hf'⟩ := Option.bind_eq_some_iff.1 hf'
      obtain ⟨c', hc', -⟩ := Option.map_eq_some_iff.1 hf'
      refine ⟨⟨c, hc⟩, fun span hs => ?_⟩
      subst hs
      obtain ⟨time, ht, -⟩ := Option.map_eq_some_iff.1 hc'
      by_contra hlate
      rw [Nanos.after?, if_neg hlate] at ht
      exact absurd ht (by simp)
    · rintro ⟨⟨c, hc⟩, hs⟩
      have hset : ∃ c', c.set? f.stage.now s = some c' := by
        cases s with
        | timeout span =>
          exact ⟨_, Option.map_eq_some_iff.2 ⟨_, if_pos (hs span rfl), rfl⟩⟩
        | deadline | serviceClass | cost | retryBudget | sliding => exact ⟨_, rfl⟩
      obtain ⟨c', hc'⟩ := hset
      exact ⟨_, Option.bind_eq_some_iff.2 ⟨c, hc, Option.map_eq_some_iff.2 ⟨c', hc', rfl⟩⟩⟩

/-- No event changes a context that is there. -/
theorem getElem?_step (hs : f.step e = some f') (hc : f.contexts[n]? = some c) :
    f'.contexts[n]? = some c := by
  have hadd (r : Stage × Context) : (f.add r).contexts[n]? = some c := by
    rw [add, List.getElem?_append_left (List.getElem?_eq_some_iff.1 hc).1]
    exact hc
  cases e with
  | root =>
    obtain rfl := Option.some_inj.1 hs
    exact hadd _
  | child number =>
    obtain ⟨_, -, rfl⟩ := Option.map_eq_some_iff.1 hs
    exact hadd _
  | derive number s =>
    obtain ⟨_, -, hs⟩ := Option.bind_eq_some_iff.1 hs
    obtain ⟨_, -, rfl⟩ := Option.map_eq_some_iff.1 hs
    exact hadd _
  | cancel number =>
    obtain ⟨_, -, rfl⟩ := Option.map_eq_some_iff.1 hs
    exact hc
  | pass span =>
    obtain rfl := Option.some_inj.1 hs
    exact hc

end Status

/-- After any events that can happen, a context is cancelled if it, or one whose token is above its
own, was ever cancelled, else late if the earliest of the deadlines given on its path has come, and
else not done.  Its options are what was last written on its path, and no later event changes it. -/
theorem contexts_follow_paths {es : List Event} {f : Family} (hf : run? es = some f) :
    (∀ e, (∃ f', f.step e = some f') ↔ e.Possible f) ∧
    f.contexts.length = (Annals.of es).paths.length ∧
    ∀ n c, f.contexts[n]? = some c →
      (f.stage.status c = some .cancelled ↔ WasCancelled es n) ∧
      (f.stage.status c = some .deadlineExceeded ↔ ¬ WasCancelled es n ∧ IsLate es n) ∧
      (f.stage.status c = none ↔ ¬ WasCancelled es n ∧ ¬ IsLate es n) ∧
      c.deadline = ((Annals.of es).path n).deadlines.min? ∧
      c.options = ((Annals.of es).path n).options ∧
      ∀ e f', f.step e = some f' → f'.contexts[n]? = some c := by
  have h := Follows.run hf
  refine ⟨fun e => exists_step_iff, h.length_eq, fun n c hc => ?_⟩
  have hd := h.derived n c hc
  have hframe (e : Event) (f' : Family) (hs : f.step e = some f') : f'.contexts[n]? = some c :=
    getElem?_step hs hc
  rcases h.status_eq hc with ⟨hwas, hs⟩ | ⟨hwas, hlate, hs⟩ | ⟨hwas, hlate, hs⟩
  · exact ⟨by simp [hs, hwas], by simp [hs, hwas], by simp [hs, hwas], hd.deadline_eq,
      hd.options_eq, hframe⟩
  · exact ⟨by simp [hs, hwas], by simp [hs, hwas, hlate], by simp [hs, hlate], hd.deadline_eq,
      hd.options_eq, hframe⟩
  · exact ⟨by simp [hs, hwas], by simp [hs, hlate], by simp [hs, hwas, hlate], hd.deadline_eq,
      hd.options_eq, hframe⟩

/-- A context is made below one that was cancelled before, and another gets two deadlines, of which
the one that is given first is due. -/
theorem contexts_follow_paths_two_roots :
    ∃ f late below, run? [.root, .derive 0 (.timeout 5), .cancel 0, .child 1, .root,
      .derive 3 (.deadline 9), .derive 4 (.deadline 20), .derive 5 (.cost 2), .child 6, .pass 9] =
        some f ∧ f.contexts[2]? = some below ∧ f.contexts[7]? = some late ∧
      f.stage.status below = some .cancelled ∧ f.stage.status late = some .deadlineExceeded ∧
      late.deadline = some 9 ∧ late.options.cost = some 2 := by
  refine ⟨_, _, _, rfl, rfl, rfl, ?_⟩
  obtain ⟨-, -, h⟩ := @contexts_follow_paths [.root, .derive 0 (.timeout 5), .cancel 0,
    .child 1, .root, .derive 3 (.deadline 9), .derive 4 (.deadline 20), .derive 5 (.cost 2),
    .child 6, .pass 9] _ rfl
  obtain ⟨hbelow, -⟩ := h 2 _ rfl
  obtain ⟨-, hlate, -, hdeadline, hoptions, -⟩ := h 7 _ rfl
  refine ⟨hbelow.2 ⟨0, by simp, 0, rfl, ?_⟩, hlate.2 ⟨?_, 9, rfl, by decide⟩, hdeadline.trans rfl,
    (congrArg CallOptions.cost hoptions).trans rfl⟩
  · show 0 ∈ [1, 0]
    decide
  · rintro ⟨m, hm, token, hhead, htoken⟩
    obtain rfl : m = 0 := by simpa using hm
    obtain rfl : 0 = token := Option.some_inj.1 hhead
    exact absurd (show 0 ∈ [3, 2] from htoken) (by decide)

end Family

end DriveDelta
