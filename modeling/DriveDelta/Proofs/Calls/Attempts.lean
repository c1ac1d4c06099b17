import Mathlib.Data.List.ModifyLast
import DriveDelta.Proofs.Calls.Cancellation
import DriveDelta.Proofs.Calls.Feedback
import DriveDelta.Proofs.Wire.Headers

/-!
# What each attempt sends

A builder may give another request to every attempt, and may fail at any of them; so may whoever
gives out credentials.  Still, what goes out is what the builder gave to that attempt, with the
credential that was given to that attempt and to no other one, and it is as long as what the builder
gave first.

## What is here

* `Call.Trial` and `Traffic.attempts`, what each attempt of a run was given and has sent;
* `Call.Carries`, a request that is sent for one that was built, and `Call.Trial.Sound`;
* `Call.Phase.Stands`, how a call may stand after some attempts, and `Call.Faithful`, what every
  step of a call keeps;
* `Traffic.attempts_replay_builder`, all of it for every run.
-/

set_option autoImplicit false

namespace DriveDelta

namespace Call

variable {α : Type}

/-! ## Attempts -/

/-- What happens to a call, or what it does. -/
inductive Happening (α : Type) where
  /-- It is given a credential. -/
  | given (credential : String)
  | did (effect : Effect α)

/-- What an attempt was given, and what it has sent, in order. -/
structure Trial where
  credentials : List String := []
  requests : List Request := []
  deriving DecidableEq

namespace Effect

/-- The request that is sent. -/
def sent? : Effect α → Option Request
  | .sent request => some request
  | _ => none

/-- Whether the builder is invoked, which begins an attempt. -/
def isBuild : Effect α → Bool
  | .built => true
  | _ => false

end Effect

namespace Trial

/-- Invoking the builder begins an attempt, and whatever follows belongs to the last one. -/
def note (as : List Trial) : Happening α → List Trial
  | .given value => as.modifyLast fun a => { a with credentials := a.credentials ++ [value] }
  | .did .built => as ++ [{}]
  | .did (.sent request) => as.modifyLast fun a => { a with requests := a.requests ++ [request] }
  | .did _ => as

/-- The attempts after some effects. -/
def noteAll (as : List Trial) (effects : List (Effect α)) : List Trial :=
  (effects.map Happening.did).foldl note as

theorem noteAll_append (as : List Trial) (effects effects' : List (Effect α)) :
    noteAll as (effects ++ effects') = noteAll (noteAll as effects) effects' := by
  rw [noteAll, List.map_append, List.foldl_append]
  rfl

theorem note_given (before : List Trial) (a : Trial) (value : String) :
    note (before ++ [a]) (.given value : Happening α) =
      before ++ [{ a with credentials := a.credentials ++ [value] }] :=
  List.modifyLast_concat ..

theorem noteAll_sent (before : List Trial) (a : Trial) (c : ServiceClass) (kind : PoolKind)
    (cost : Nat) (request : Request) :
    noteAll (before ++ [a]) [(.charged c kind cost : Effect α), .sent request] =
      before ++ [{ a with requests := a.requests ++ [request] }] :=
  List.modifyLast_concat ..

/-- Each time the builder is invoked there is one more attempt. -/
theorem length_noteAll (as : List Trial) (effects : List (Effect α)) :
    (noteAll as effects).length = as.length + effects.countP (·.isBuild) := by
  induction effects generalizing as with
  | nil => rfl
  | cons e effects ih =>
    have he : (note as (.did e)).length = as.length + if e.isBuild then 1 else 0 := by
      cases e with
      | built => exact List.length_append
      | sent request =>
        rcases List.eq_nil_or_concat as with rfl | ⟨before, a, rfl⟩
        · rfl
        · rw [List.concat_eq_append, note, List.modifyLast_concat]
          simp [Effect.isBuild]
      | _ => rfl
    rw [noteAll, List.map_cons, List.foldl_cons, List.countP_cons]
    refine (ih (note as (.did e))).trans ?_
    rw [he]
    omega

theorem note_ne_nil {as : List Trial} (h : as ≠ []) (x : Happening α) : note as x ≠ [] := by
  obtain rfl | ⟨before, a, rfl⟩ := List.eq_nil_or_concat as
  · exact absurd rfl h
  · rw [List.concat_eq_append]
    rw [note.eq_def]
    split <;> simp [List.modifyLast_concat]

/-- Each request that is sent belongs to an attempt. -/
theorem requests_noteAll {as : List Trial} {effects : List (Effect α)}
    (h : ∀ e ∈ effects, e.isRequest = true → as ≠ []) :
    (noteAll as effects).flatMap (·.requests) =
      as.flatMap (·.requests) ++ effects.filterMap (·.sent?) := by
  induction effects generalizing as with
  | nil => rw [List.filterMap_nil, List.append_nil]; rfl
  | cons e effects ih =>
    have he : (note as (.did e)).flatMap (·.requests) =
        as.flatMap (·.requests) ++ e.sent?.toList := by
      cases e with
      | sent request =>
        obtain rfl | ⟨before, a, rfl⟩ := List.eq_nil_or_concat as
        · exact absurd rfl (h _ List.mem_cons_self rfl)
        · rw [List.concat_eq_append, note, List.modifyLast_concat]
          simp [Effect.sent?]
      | _ => simp [note, Effect.sent?]
    rw [noteAll, List.map_cons, List.foldl_cons]
    refine (ih ?_).trans ?_
    · intro e' he' hsent
      exact note_ne_nil (h e' (List.mem_cons_of_mem _ he') hsent) _
    · rw [he, List.append_assoc]
      cases hsent : e.sent? <;> simp [hsent]

/-- Whoever begins nothing adds nothing to the attempts. -/
theorem noteAll_of_quiet {effects : List (Effect α)} (h : Quiet effects) (as : List Trial) :
    noteAll as effects = as := by
  induction effects with
  | nil => rfl
  | cons e effects ih =>
    have he : note as (.did e) = as := by
      have hquiet := h e List.mem_cons_self
      cases e with
      | built | askedCredential | charged | sent => exact absurd hquiet (by simp [Effect.begins])
      | _ => rfl
    rw [noteAll, List.map_cons, List.foldl_cons, he]
    exact ih fun e' he' => h e' (List.mem_cons_of_mem _ he')

end Trial

/-! ## What may be sent -/

/-- The request that is sent for one that was built: the same, but for a single `Authorization`
header with the credential of the attempt, if there is a provider. -/
structure Carries (call : Call) (credentials : List String) (built request : Request) : Prop where
  method_eq : request.method = built.method
  url_eq : request.url = built.url
  body_eq : request.body = built.body
  others_eq : request.headers.filter (!Text.sameIgnoringCase ·.1 "Authorization") =
    built.headers.filter (!Text.sameIgnoringCase ·.1 "Authorization")
  plain : call.authenticated = false → request = built
  authorized : call.authenticated = true → ∃ value, credentials = [value] ∧
    request.headers.filter (Text.sameIgnoringCase ·.1 "Authorization") = [("Authorization", value)]

/-- The request of this attempt was built, and its body has this length, as that of the first. -/
structure Builds (call : Call) (attempt length : Nat) (built : Request) : Prop where
  build_eq : call.build attempt = .ok built
  length_eq : built.body.length = length
  first : ∃ first, call.build 1 = .ok first ∧ first.body.length = length

variable {call : Call} {attempt length now : Nat} {request built : Request}

theorem carries_plain (h : call.authenticated = false) : Carries call [] built built :=
  ⟨rfl, rfl, rfl, rfl, fun _ => rfl, fun ha => absurd (ha.symm.trans h) (by simp)⟩

theorem carries_authorized (h : call.authenticated = true) (value : String) :
    Carries call [value] built (built.setHeader "Authorization" value) :=
  ⟨rfl, rfl, rfl, Headers.filter_set_others _ _ _, fun ha => absurd (ha.symm.trans h) (by simp),
    fun _ => ⟨value, rfl, Headers.filter_set_self _ _ _⟩⟩

/-- The attempt with this number has sent nothing, or once what it should. -/
def Trial.Sound (call : Call) (attempt : Nat) (a : Trial) : Prop :=
  a.requests = [] ∨ ∃ length built request, Builds call attempt length built ∧
    Carries call a.credentials built request ∧ a.requests = [request]

/-! ## Where a call stands -/

/-- How a call may stand after some attempts. -/
def Phase.Stands (call : Call) (as : List Trial) : Phase → Prop
  | .building attempt length => attempt = as.length + 1 ∧
    (length = none ∧ as = [] ∨
      ∃ first, call.build 1 = .ok first ∧ length = some first.body.length)
  | .authorizing attempt length request => call.authenticated = true ∧ ∃ before,
    as = before ++ [({} : Trial)] ∧ attempt = before.length + 1 ∧ Builds call attempt length request
  | .arriving attempt length request | .admitting attempt length request _ _ =>
    ∃ before credentials built, as = before ++ [{ credentials }] ∧ attempt = before.length + 1 ∧
      Builds call attempt length built ∧ Carries call credentials built request
  | .exchanging attempt length .. | .backingOff attempt length _ =>
    attempt = as.length ∧ ∃ built, Builds call attempt length built
  | .finished _ => True

/-- The last attempt came to nothing, because its request could not be built or differs in length
from the first, and the call has ended by that. -/
def EndsBuilding (call : Call) (attempt : Nat) (phase : Phase) : Prop :=
  (∃ e, call.build attempt = .error e ∧ phase = .finished (.error e)) ∨
  ∃ first built, call.build 1 = .ok first ∧ call.build attempt = .ok built ∧
    built.body.length ≠ first.body.length ∧
    phase = .finished (.error (.fatal none (bodyChanged first.body.length built.body.length)))

/-- What every step of a call keeps. -/
structure Faithful (call : Call) (phase : Phase) (as : List Trial) : Prop where
  stands : phase.Stands call as
  sound : ∀ k (a : Trial), as[k]? = some a → a.Sound call (k + 1)
  /-- A builder that fails, or a body of another length, is the end. -/
  built : ∀ k, k < as.length → (∃ length built, Builds call (k + 1) length built) ∨
    k + 1 = as.length ∧ as[k]? = some {} ∧ EndsBuilding call (k + 1) phase

variable {phase phase' : Phase} {as : List Trial}

theorem faithful_start (call : Call) : Faithful call start [] :=
  ⟨⟨rfl, .inl ⟨rfl, rfl⟩⟩, by simp, by simp⟩

/-- As long as a call has not ended, all its requests could be built, with bodies of one length. -/
theorem Faithful.builds (h : Faithful call phase as) (hp : ∀ result, phase ≠ .finished result)
    {k : Nat} (hk : k < as.length) : ∃ length built, Builds call (k + 1) length built := by
  rcases h.built k hk with hb | ⟨-, -, ⟨e, -, hend⟩ | ⟨_, _, -, -, -, hend⟩⟩
  · exact hb
  · exact absurd hend (hp _)
  · exact absurd hend (hp _)

/-- A call goes on without anything being noted. -/
theorem Faithful.onward (h : Faithful call phase as) (hp : ∀ result, phase ≠ .finished result)
    (hs : phase'.Stands call as) : Faithful call phase' as :=
  ⟨hs, h.sound, fun _ hk => .inl (h.builds hp hk)⟩

/-- A call invokes its builder. -/
theorem Faithful.built_next (h : Faithful call phase as) (hp : ∀ result, phase ≠ .finished result)
    (hs : phase'.Stands call (as ++ [({} : Trial)]))
    (hb : (∃ length built, Builds call (as.length + 1) length built) ∨
      EndsBuilding call (as.length + 1) phase') : Faithful call phase' (as ++ [({} : Trial)]) := by
  refine ⟨hs, ?_, ?_⟩
  · intro k a ha
    rw [List.getElem?_append] at ha
    split at ha
    · exact h.sound k a ha
    · obtain rfl : a = {} := by
        have hmem := List.mem_of_getElem? ha
        simpa using hmem
      exact .inl rfl
  · intro k hk
    rw [List.length_append, List.length_singleton] at hk ⊢
    rcases Nat.lt_succ_iff_lt_or_eq.1 hk with hlt | rfl
    · exact .inl (h.builds hp hlt)
    · rcases hb with hb | hb
      · exact .inl hb
      · exact .inr ⟨rfl, List.getElem?_concat_length, hb⟩

/-- The last attempt is given a credential or sends a request. -/
theorem Faithful.changed {before : List Trial} {a a' : Trial}
    (h : Faithful call phase (before ++ [a])) (hp : ∀ result, phase ≠ .finished result)
    (hs : phase'.Stands call (before ++ [a'])) (ha : a'.Sound call (before.length + 1)) :
    Faithful call phase' (before ++ [a']) := by
  refine ⟨hs, ?_, ?_⟩
  · intro k x hx
    rcases Nat.lt_trichotomy k before.length with hlt | rfl | hgt
    · rw [List.getElem?_append_left hlt] at hx
      refine h.sound k x ?_
      rw [List.getElem?_append_left hlt, hx]
    · rw [List.getElem?_concat_length, Option.some_inj] at hx
      exact hx ▸ ha
    · rw [List.getElem?_eq_none (by simp; omega)] at hx
      exact absurd hx (by simp)
  · intro k hk
    exact .inl (h.builds hp (by simpa using hk))

/-- Whatever follows an attempt, the next one has its number and the length of the first body. -/
theorem conclude_stands (hb : Builds call as.length length built) (url : String)
    (outcome : Outcome) (now : Nat) (status : Option CancelReason) :
    (call.conclude as.length length url outcome now status).1.Stands call as := by
  obtain ⟨first, hfirst, hlength⟩ := hb.first
  rcases conclude_phase call as.length length url outcome now status with ⟨_, h⟩ | h | ⟨_, h⟩
  · rw [h]
    trivial
  · rw [h]
    exact ⟨rfl, .inr ⟨first, hfirst, congrArg some hlength.symm⟩⟩
  · rw [h]
    exact ⟨rfl, built, hb⟩

/-- What a look at the pool leads to. -/
theorem Faithful.admitted (h : Faithful call phase as) (hp : ∀ result, phase ≠ .finished result)
    (hs : (Phase.arriving attempt length request).Stands call as) (l : Limiter α)
    (kind : PoolKind) (turn : Turn) (events : List (AdmissionEvent α)) :
    Faithful call
      (call.admitted l now attempt length request kind turn (events.map .admissionEvent)).phase
      (Trial.noteAll as
        (call.admitted l now attempt length request kind turn
          (events.map .admissionEvent)).effects) := by
  have hquiet := quiet_admissionEvents events
  cases turn with
  | cancelled reason =>
    rw [Call.admitted, Trial.noteAll_of_quiet hquiet]
    exact h.onward hp trivial
  | asleep until_ =>
    rw [Call.admitted, Trial.noteAll_of_quiet hquiet]
    exact h.onward hp hs
  | granted =>
    obtain ⟨before, credentials, built, rfl, hattempt, hbuilds, hcarries⟩ := hs
    rw [Call.admitted, Trial.noteAll_append, Trial.noteAll_of_quiet hquiet,
      Trial.noteAll_sent]
    refine h.changed hp ⟨?_, built, hbuilds⟩ ?_
    · rw [hattempt, List.length_append, List.length_singleton]
    · rw [← hattempt]
      exact .inr ⟨length, built, request, hbuilds, hcarries, rfl⟩

/-- A credential belongs to the attempt that has asked for it. -/
theorem Faithful.given (h : Faithful call (.authorizing attempt length request) as)
    (value : String) :
    ∃ before, as = before ++ [({} : Trial)] ∧
      Faithful call (.arriving attempt length (request.setHeader "Authorization" value))
        (before ++ [{ credentials := [value] }]) := by
  obtain ⟨hauth, before, rfl, rfl, hbuilds⟩ := h.stands
  exact ⟨before, rfl, h.changed (by simp)
    ⟨before, [value], request, rfl, rfl, hbuilds, carries_authorized hauth value⟩ (.inl rfl)⟩

/-- A request that is built has the length of the first one, which it may be itself. -/
theorem builds_of_stands {length : Option Nat}
    (hs : (Phase.building attempt length).Stands call as) (hb : call.build attempt = .ok request)
    (hl : ∀ n ∈ length, n = request.body.length) :
    Builds call attempt request.body.length request := by
  refine ⟨hb, rfl, ?_⟩
  obtain ⟨rfl, ⟨-, rfl⟩ | ⟨first, hfirst, rfl⟩⟩ := hs
  · exact ⟨request, hb, rfl⟩
  · exact ⟨first, hfirst, hl _ rfl⟩

variable [Number α] {l : Limiter α} {status : Option CancelReason} {incoming : Incoming}
  {r : Step α}

/-- **Each step keeps it**, if no credential comes in. -/
theorem Faithful.step (h : Faithful call phase as)
    (ha : Advance call l now status incoming phase r)
    (hin : ∀ value after, incoming ≠ .credential (.ok value) after) :
    Faithful call r.phase (Trial.noteAll as r.effects) := by
  have hstands := h.stands
  cases ha with
  | stopped reason hp => exact h.onward hp trivial
  | unbuilt hb =>
    obtain ⟨rfl, -⟩ := hstands
    exact h.built_next (by simp) trivial (.inr (.inl ⟨_, hb, rfl⟩))
  | mismatched hb hne =>
    -- A length to compare with was set by the first request, whether or not that was ever sent.
    obtain ⟨rfl, ⟨hnone, -⟩ | ⟨first, hfirst, hlength⟩⟩ := hstands
    · exact absurd hnone (by simp)
    · obtain rfl := Option.some_inj.1 hlength
      exact h.built_next (by simp) trivial (.inr (.inr ⟨first, _, hfirst, hb, hne.symm, rfl⟩))
  | asked hb hl hauth =>
    have hbuilds := builds_of_stands hstands hb hl
    obtain ⟨rfl, -⟩ := hstands
    exact h.built_next (by simp) ⟨hauth, as, rfl, rfl, hbuilds⟩ (.inl ⟨_, _, hbuilds⟩)
  | ready hb hl hauth =>
    have hbuilds := builds_of_stands hstands hb hl
    obtain ⟨rfl, -⟩ := hstands
    exact h.built_next (by simp) ⟨as, [], _, rfl, rfl, hbuilds, carries_plain hauth⟩
      (.inl ⟨_, _, hbuilds⟩)
  | answered answer after =>
    cases answer with
    | ok value => exact absurd rfl (hin value after)
    | error e =>
      obtain ⟨-, before, rfl, rfl, hbuilds⟩ := hstands
      have hlength : before.length + 1 = (before ++ [({} : Trial)]).length := by simp
      rw [Trial.noteAll_of_quiet (quiet_authorized _ _ _ _ _ _ _ _)]
      rw [hlength] at hbuilds ⊢
      exact h.onward (by simp) (conclude_stands hbuilds ..)
  | arrived => exact h.admitted (by simp) hstands ..
  | resumed => exact h.admitted (by simp) hstands _ _ _ []
  | responded | expired =>
    obtain ⟨rfl, built, hbuilds⟩ := hstands
    rw [Trial.noteAll_of_quiet (quiet_concluded _ _ _ _ _ _ _ _ _)]
    exact h.onward (by simp) (conclude_stands hbuilds ..)
  | rested =>
    obtain ⟨rfl, built, hbuilds⟩ := hstands
    obtain ⟨first, hfirst, hlength⟩ := hbuilds.first
    exact h.onward (by simp) ⟨rfl, .inr ⟨first, hfirst, congrArg some hlength.symm⟩⟩

/-- Only an attempt that was begun sends. -/
theorem Faithful.begun_of_sent (h : Faithful call phase as)
    (ha : Advance call l now status incoming phase r) {e : Effect α} (he : e ∈ r.effects)
    (hsent : e.isRequest = true) : as ≠ [] := by
  have hquiet {effects : List (Effect α)} (hq : Quiet effects) (he : e ∈ effects) : as ≠ [] :=
    absurd hsent (by simp [(hq.free e he).2])
  have hstands := h.stands
  cases ha with
  | stopped | rested => exact absurd he List.not_mem_nil
  | unbuilt | mismatched | asked | ready =>
    simp only [List.mem_cons, List.not_mem_nil, or_false] at he
    rcases he with rfl | rfl <;> exact absurd hsent (by simp [Effect.isRequest])
  | answered => exact hquiet (quiet_authorized _ _ _ _ _ _ _ _) he
  | arrived | resumed =>
    obtain ⟨before, credentials, built, rfl, -⟩ := hstands
    simp
  | responded | expired => exact hquiet (quiet_concluded _ _ _ _ _ _ _ _ _) he

end Call

namespace Traffic

open Call

variable {α : Type}

/-! ## Runs -/

namespace Move

/-- The credential that a move brings to a call. -/
def credential? (i : Nat) : Move → Option String
  | credential j (.ok value) _ => if j = i then some value else none
  | _ => none

end Move

/-- The requests that a call has sent, in order. -/
def sent (s : Traffic α) (i : Nat) : List Request := (s.effects i).filterMap (·.sent?)

/-- What happens to a call with a move, and what it does. -/
def happenings (i : Nat) (m : Move) (s s' : Traffic α) : List (Happening α) :=
  (m.credential? i).toList.map .given ++ ((s'.effects i).drop (s.effects i).length).map .did

/-- The attempts of a call after some moves, from those that there are. -/
def attempts [Number α] (calls : Nat → Call) (i : Nat) :
    Traffic α → List Move → List Trial → List Trial
  | _, [], as => as
  | s, m :: ms, as =>
    match s.step calls m with
    | some s' => attempts calls i s' ms ((happenings i m s s').foldl Trial.note as)
    | none => as

/-- The attempts account for what a call has done. -/
structure Accounted (calls : Nat → Call) (i : Nat) (s : Traffic α) (as : List Trial) : Prop where
  faithful : Faithful (calls i) (s.phase i) as
  sent_eq : s.sent i = as.flatMap (·.requests)
  length_eq : as.length = (s.effects i).countP (·.isBuild)

variable [Number α] {calls : Nat → Call} {s s' : Traffic α} {as : List Trial} {m : Move}
  {i : Nat}

omit [Number α] in
/-- A move of somebody else. -/
theorem Accounted.of_same (h : Accounted calls i s as) (hm : m.credential? i = none)
    (hphase : s'.phase i = s.phase i) (heffects : s'.effects i = s.effects i) :
    Accounted calls i s' ((happenings i m s s').foldl Trial.note as) := by
  rw [happenings, hm, heffects, List.drop_length]
  refine ⟨?_, ?_, ?_⟩
  · rw [hphase]
    exact h.faithful
  · rw [sent, heffects]
    exact h.sent_eq
  · rw [heffects]
    exact h.length_eq

/-- The call is given a credential. -/
theorem Accounted.given (h : Accounted calls i s as) {value : String} {tokens : List Nat}
    (hs : s.step calls (.credential i (.ok value) tokens) = some s') :
    Accounted calls i s'
      ((happenings i (.credential i (.ok value) tokens) s s').foldl Trial.note as) := by
  obtain ⟨attempt, length, request, -, hphase, heq⟩ := credential_eq hs
  obtain ⟨before, rfl, hfaithful⟩ := Faithful.given (hphase ▸ h.faithful) value
  rw [authorized] at heq
  rw [heq]
  have hcredential : (Move.credential i (.ok value) tokens).credential? i = some value := if_pos rfl
  have hnoted : (happenings i (.credential i (.ok value) tokens) s (s.after i
      (tokens.foldl Forest.cancel s.forest)
      ⟨s.limiter, .arriving attempt length (request.setHeader "Authorization" value), []⟩)).foldl
        Trial.note (before ++ [({} : Trial)]) = before ++ [{ credentials := [value] }] := by
    rw [happenings, hcredential, effects_after_self, List.drop_left, List.map_nil,
      List.append_nil]
    show Trial.note (before ++ [({} : Trial)]) (.given value : Happening α) = _
    rw [Trial.note_given, List.nil_append]
  rw [hnoted]
  refine ⟨?_, ?_, ?_⟩
  · rw [phase_after_self]
    exact hfaithful
  · rw [sent, effects_after_self, List.append_nil]
    refine h.sent_eq.trans ?_
    rw [List.flatMap_append, List.flatMap_append]
    rfl
  · rw [effects_after_self, List.append_nil, ← h.length_eq, List.length_append,
      List.length_append]
    rfl

/-- The call takes a step in which it is given no credential. -/
theorem Accounted.after (h : Accounted calls i s as) {forest : Forest} {incoming : Incoming}
    {status : Option CancelReason} {r : Call.Step α} (hm : m.credential? i = none)
    (ha : (calls i).Advance s.limiter s.now status incoming (s.phase i) r)
    (hin : ∀ value after, incoming ≠ .credential (.ok value) after) :
    Accounted calls i (s.after i forest r)
      ((happenings i m s (s.after i forest r)).foldl Trial.note as) := by
  have hnoted : (happenings i m s (s.after i forest r)).foldl Trial.note as =
      Trial.noteAll as r.effects := by
    rw [happenings, hm, effects_after_self, List.drop_left]
    rfl
  rw [hnoted]
  refine ⟨?_, ?_, ?_⟩
  · rw [phase_after_self]
    exact h.faithful.step ha hin
  · rw [sent, effects_after_self, List.filterMap_append, Trial.requests_noteAll, ← h.sent_eq]
    · rfl
    · intro e he hsent
      exact h.faithful.begun_of_sent ha he hsent
  · rw [effects_after_self, List.countP_append, Trial.length_noteAll, h.length_eq]

theorem Accounted.step (h : Accounted calls i s as) (hs : s.step calls m = some s') :
    Accounted calls i s' ((happenings i m s s').foldl Trial.note as) := by
  by_cases hcall : m.call? = some i
  -- A credential is the one thing that an attempt gets without an effect of its call.
  · by_cases hgiven : ∃ value tokens, m = .credential i (.ok value) tokens
    · obtain ⟨value, tokens, rfl⟩ := hgiven
      exact h.given hs
    · obtain ⟨forest, after, r, rfl, hr⟩ := exists_step hcall hs
      have hin : ∀ value after', m.incoming after ≠ .credential (.ok value) after' := by
        intro value after' he
        cases m with
        | credential j answer tokens =>
          obtain rfl := Option.some_inj.1 hcall
          obtain ⟨rfl, -⟩ := Incoming.credential.inj he
          exact hgiven ⟨value, tokens, rfl⟩
        | _ => exact absurd he (by simp [Move.incoming])
      have hnone : m.credential? i = none := by
        cases m with
        | credential j answer tokens =>
          cases answer with
          | error e => rfl
          | ok value => exact absurd rfl (hin value after)
        | _ => rfl
      exact h.after hnone (advance_of_step hr) hin
  · have hnone : m.credential? i = none := by
      cases m with
      | credential j answer tokens =>
        cases answer with
        | error e => rfl
        | ok value => exact if_neg fun hj => hcall (congrArg some hj)
      | _ => rfl
    obtain ⟨j, forest, incoming, r, hj, rfl, -, -⟩ | ⟨-, hphase, htrace⟩ := step_cases hs
    · have hne : i ≠ j := fun he => hcall (he ▸ hj)
      exact h.of_same hnone (phase_after_of_ne hne) (effects_after_of_ne hne)
    · exact h.of_same hnone (by rw [hphase]) (by rw [effects, htrace, effects])

/-- All moves, by induction on how many there are still to come. -/
theorem Accounted.run {ms : List Move} (h : Accounted calls i s as)
    (hrun : s.run calls ms = some s') : Accounted calls i s' (attempts calls i s ms as) := by
  induction ms generalizing s as with
  | nil =>
    obtain rfl := Option.some_inj.1 hrun
    exact h
  | cons m ms ih =>
    rw [Traffic.run] at hrun
    rw [attempts]
    cases ht : s.step calls m with
    | none =>
      rw [ht] at hrun
      exact absurd hrun (by simp)
    | some t =>
      rw [ht] at hrun
      exact ih (h.step ht) hrun

/-- **What is sent is what was built for the same attempt.**  Take a call among others over one
limiter, whatever its context, its budget and its builder, whatever credentials it is given or
refused, and whatever its requests are answered by.

* The builder is invoked once for each attempt, and an attempt sends at most one request.
* What an attempt sends has the method, the address, the body and the other headers, in their order,
  of what was built for this attempt, and its body is as long as that of the first request built.
  If there is a provider it has a single `Authorization` header, in whatever case, with the one
  credential that this attempt was given; if there is none it is just what was built.
* The first attempt whose body differs in length from that of the first sends nothing, and ends the
  call by saying so. -/
theorem attempts_replay_builder {cfg : LimiterConfig α} {start : Nat} {forest : Forest}
    {ms : List Move} (hrun : (fresh cfg start forest).run calls ms = some s) (i : Nat) :
    let as := attempts calls i (fresh cfg start forest) ms []
    s.sent i = as.flatMap (·.requests) ∧
    as.length = (s.effects i).countP (·.isBuild) ∧
    (∀ k a, as[k]? = some a → a.requests = [] ∨ ∃ first built request,
      (calls i).build 1 = .ok first ∧ (calls i).build (k + 1) = .ok built ∧
      a.requests = [request] ∧ request.body.length = first.body.length ∧
      Carries (calls i) a.credentials built request) ∧
    ∀ k first built, k < as.length → (calls i).build 1 = .ok first →
      (calls i).build (k + 1) = .ok built → built.body.length ≠ first.body.length →
      as.length = k + 1 ∧ as[k]? = some {} ∧ s.phase i =
        .finished (.error (.fatal none (bodyChanged first.body.length built.body.length))) := by
  intro as
  have h : Accounted calls i s as :=
    Accounted.run ⟨faithful_start (calls i), rfl, rfl⟩ hrun
  refine ⟨h.sent_eq, h.length_eq, ?_, ?_⟩
  · intro k a ha
    obtain hnone | ⟨length, built, request, hbuilds, hcarries, hrequests⟩ :=
      h.faithful.sound k a ha
    · exact .inl hnone
    · obtain ⟨first, hfirst, hlength⟩ := hbuilds.first
      refine .inr ⟨first, built, request, hfirst, hbuilds.build_eq, hrequests, ?_, hcarries⟩
      rw [hcarries.body_eq, hbuilds.length_eq, hlength]
  · intro k first built hk hfirst hbuilt hne
    obtain ⟨length, built', hbuilds⟩ | ⟨hlast, ha, hend⟩ := h.faithful.built k hk
    · obtain ⟨first', hfirst', hlength⟩ := hbuilds.first
      obtain rfl : built' = built := Except.ok.inj (hbuilds.build_eq.symm.trans hbuilt)
      obtain rfl : first' = first := Except.ok.inj (hfirst'.symm.trans hfirst)
      exact absurd (hbuilds.length_eq.trans hlength.symm) hne
    · obtain ⟨e, he, -⟩ | ⟨first', built', hfirst', hbuilt', -, hphase⟩ := hend
      · exact absurd (he.symm.trans hbuilt) (by simp)
      · obtain rfl : built' = built := Except.ok.inj (hbuilt'.symm.trans hbuilt)
        obtain rfl : first' = first := Except.ok.inj (hfirst'.symm.trans hfirst)
        exact ⟨hlast.symm, ha, hphase⟩

/-- Calls whose builder gives another body to each attempt, the third of them a longer one, and that
ask for a credential each time. -/
def shiftingCall : Call where
  context := { token := 0 }
  budget := .standard
  build attempt := .ok
    { method := .post
      url := "https://host/items"
      headers := [("authorization", "stale"), ("Accept", "text/plain")]
      body := if attempt < 3 then [attempt.toUInt8, 0] else [0, 0, 0] }
  authenticated := true

/-- The first attempt is refused a credential and sends nothing, but it has set the length; the
second is answered by 503; the third is the end. -/
theorem attempts_replay_builder_shifting :
    let ms : List Move := [.turn 0, .credential 0 (.error .connectionReset) [],
      .pass (Nanos.ofSeconds 3), .turn 0, .turn 0, .credential 0 (.ok "fresh") [], .turn 0,
      .response 0 (.ok { status := 503 }) [], .turn 0]
    ∃ s, (fresh (.builtin : LimiterConfig Double) 0 ⟨[⟨none, false⟩]⟩).run (fun _ => shiftingCall)
        ms = some s ∧
      s.sent 0 = [{
        method := .post
        url := "https://host/items"
        headers := [("Accept", "text/plain"), ("Authorization", "fresh")]
        body := [2, 0] }] ∧
      s.phase 0 = .finished (.error (.fatal none (bodyChanged 2 3))) := by
  intro ms
  have hsome : ((fresh (.builtin : LimiterConfig Double) 0 ⟨[⟨none, false⟩]⟩).run
      (fun _ => shiftingCall) ms).isSome = true := by decide +kernel
  have has : attempts (fun _ => shiftingCall) 0
      (fresh (.builtin : LimiterConfig Double) 0 ⟨[⟨none, false⟩]⟩) ms [] =
        [{}, ⟨["fresh"], [{
          method := .post
          url := "https://host/items"
          headers := [("Accept", "text/plain"), ("Authorization", "fresh")]
          body := [2, 0] }]⟩, {}] := by decide +kernel
  obtain ⟨s, hs⟩ := Option.isSome_iff_exists.1 hsome
  obtain ⟨hsent, -, -, hend⟩ := attempts_replay_builder hs 0
  rw [has] at hsent hend
  exact ⟨s, hs, hsent, (hend 2 _ _ (by decide) rfl rfl (by decide)).2.2⟩

end Traffic

end DriveDelta
