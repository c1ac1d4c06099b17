import DriveDelta.Rehearsal.Calls
import DriveDelta.Proofs.Calls.Steps
import DriveDelta.Proofs.Rehearsal.Alone

/-!
# The course of a call, as its rules have it

A call makes attempts until one ends with a response that needs no other, or its budget is used up.
This file writes these rules down without classifiers, decisions or phases: which outcomes are
terminal, how long the pause after an attempt is, and what the result is.  What an attempt ends with
is up to the scripts of the services that it asks.

## What is here

* `Call.isTerminal`, `Call.pause`, `Call.result` and `Call.closing`, with `Call.conclude_of_rules`:
  classifier, budget and end of a call agree with them on every outcome;
* `Call.Attempt`, `Call.Attempted`, an attempt that goes as the scripts have it, and `Call.Course`,
  one attempt after the other; `Call.Course.count` counts them;
* `Call.Attempt.trace` and `Call.trace`, what such a call does and when.
-/

set_option autoImplicit false

namespace DriveDelta

/-! ## The rules -/

namespace Call

/-- Whether an outcome ends a call however much of its budget is left: a response other than 429 and
500 to 599. -/
def isTerminal : Outcome → Bool
  | .ok r => r.status ≠ 429 && !(500 ≤ r.status && r.status ≤ 599)
  | .error _ => false

/-- The pause after an attempt that gets a successor.  There is none after 503 and 504.  After the
other responses the server may ask for one. -/
def pause (b : RetryBudget) (attempt : Nat) : Outcome → Nat
  | .ok r =>
    if r.status = 503 ∨ r.status = 504 then 0
    else
      match r.retryAfter? with
      | some hint => min hint b.maxBackoff
      | none => b.backoff attempt
  | .error _ => b.backoff attempt

/-- The text for a response that is terminal and not a success. -/
def rejection (r : Response) : String :=
  if 400 ≤ r.status ∧ r.status ≤ 499 then r.excerpt else "unexpected status " ++ toString r.status

/-- The result of a call whose last attempt had this outcome. -/
def result (attempts : Nat) : Outcome → Except Error Response
  | .ok r =>
    if 200 ≤ r.status ∧ r.status ≤ 399 then .ok r
    else if isTerminal (.ok r) then .error (.fatal (some r.status) (rejection r))
    else .error (.throttled attempts (some r.status) none)
  | .error e =>
    if e.isTransient then .error (.throttled attempts none (some e.message))
    else .error (.fatal none
      ("giving up after " ++ toString attempts ++ " attempts: " ++ e.message))

/-- What the end of a call leaves in the log. -/
def closing (attempts : Nat) : Outcome → List CallEvent
  | .ok r => if isTerminal (.ok r) then [] else [.exhausted attempts (.ok r.status)]
  | .error e => if e.isTransient then [.exhausted attempts (.error e)] else []

/-- The decision on a response, by its status. -/
theorem ofResponse_cases (r : Response) :
    (200 ≤ r.status ∧ r.status ≤ 399) ∧ Decision.ofResponse r = .noRetry ∨
    (400 ≤ r.status ∧ r.status ≤ 499 ∧ r.status ≠ 429) ∧ Decision.ofResponse r = .noRetry ∨
    (r.status = 503 ∨ r.status = 504) ∧ Decision.ofResponse r = .retryNow ∨
    (r.status = 429 ∨ 500 ≤ r.status ∧ r.status ≤ 599 ∧ r.status ≠ 503 ∧ r.status ≠ 504) ∧
      Decision.ofResponse r = .retryAfter r.retryAfter? ∨
    (r.status < 200 ∨ 599 < r.status) ∧ Decision.ofResponse r = .fatal := by
  simp only [Decision.ofResponse, Decision.classify, Decision.ofStatus]
  by_cases h₁ : 200 ≤ r.status ∧ r.status ≤ 399
  · exact .inl ⟨h₁, by simp [h₁]⟩
  · by_cases h₂ : r.status = 429 ∨ r.status = 502
    · exact .inr (.inr (.inr (.inl ⟨by omega, by simp [h₁, h₂]⟩)))
    · by_cases h₃ : 400 ≤ r.status ∧ r.status ≤ 499
      · exact .inr (.inl ⟨by omega, by simp [h₁, h₂, h₃]⟩)
      · by_cases h₄ : r.status = 503 ∨ r.status = 504
        · exact .inr (.inr (.inl ⟨h₄, by simp [h₁, h₂, h₃, h₄]⟩))
        · by_cases h₅ : 500 ≤ r.status ∧ r.status ≤ 599
          · exact .inr (.inr (.inr (.inl ⟨by omega, by simp [h₁, h₂, h₃, h₄, h₅]⟩)))
          · exact .inr (.inr (.inr (.inr ⟨by omega, by simp [h₁, h₂, h₃, h₄, h₅]⟩)))

theorem isTerminal_ok {r : Response} :
    isTerminal (.ok r) = true ↔ r.status ≠ 429 ∧ ¬ (500 ≤ r.status ∧ r.status ≤ 599) := by
  simp only [isTerminal, ne_eq, decide_not, Bool.and_eq_true, Bool.not_eq_true',
    decide_eq_false_iff_not, Bool.and_eq_false_iff, not_and, not_le]
  grind

section Rules

variable (b : RetryBudget) (attempt : Nat) (outcome : Outcome)

theorem decide_of_rules :
    b.decide attempt (.ofOutcome outcome) =
      if isTerminal outcome ∨ b.maxAttempts ≤ attempt then .stop
      else .again (pause b attempt outcome) := by
  by_cases hmax : b.maxAttempts ≤ attempt
  · simp [RetryBudget.decide, hmax]
  cases outcome with
  | error e => simp [RetryBudget.decide, hmax, Decision.ofOutcome, Decision.ofError,
      Decision.classify, isTerminal, pause]
  | ok r =>
    simp only [RetryBudget.decide, hmax, if_false, or_false, isTerminal_ok, Decision.ofOutcome]
    rcases ofResponse_cases r with ⟨hs, hd⟩ | ⟨hs, hd⟩ | ⟨hs, hd⟩ | ⟨hs, hd⟩ | ⟨hs, hd⟩ <;> rw [hd]
    · rw [if_pos (by omega)]
    · rw [if_pos (by omega)]
    · rw [if_neg (by omega)]
      simp [pause, hs]
    · have hnow : ¬ (r.status = 503 ∨ r.status = 504) := by omega
      rw [if_neg (by omega)]
      cases hr : r.retryAfter? <;> simp [pause, hnow, hr]
    · rw [if_pos (by omega)]

theorem finish_of_rules :
    finish outcome (.ofOutcome outcome) attempt
      = (result attempt outcome, closing attempt outcome) := by
  cases outcome with
  | error e =>
    simp only [finish, Decision.ofOutcome, Decision.ofError, Decision.classify, result, closing]
    split <;> rfl
  | ok r =>
    have hsuccess : r.isSuccess = true ↔ 200 ≤ r.status ∧ r.status ≤ 399 := by
      simp [Response.isSuccess]
      omega
    simp only [Decision.ofOutcome, result, closing, isTerminal_ok, rejection]
    rcases ofResponse_cases r with ⟨hs, hd⟩ | ⟨hs, hd⟩ | ⟨hs, hd⟩ | ⟨hs, hd⟩ | ⟨hs, hd⟩ <;> rw [hd]
    · have hterminal : r.status ≠ 429 ∧ ¬ (500 ≤ r.status ∧ r.status ≤ 599) := by omega
      simp only [finish, hsuccess.2 hs, if_true, if_pos hs, if_pos hterminal]
    · have hno : ¬ (200 ≤ r.status ∧ r.status ≤ 399) := by omega
      have hterminal : r.status ≠ 429 ∧ ¬ (500 ≤ r.status ∧ r.status ≤ 599) := by omega
      have hclient : 400 ≤ r.status ∧ r.status ≤ 499 := by omega
      simp only [finish, hsuccess, if_neg hno, if_pos hterminal, if_pos hclient]
    · have hno : ¬ (200 ≤ r.status ∧ r.status ≤ 399) := by omega
      have hterminal : ¬ (r.status ≠ 429 ∧ ¬ (500 ≤ r.status ∧ r.status ≤ 599)) := by omega
      simp only [finish, if_neg hno, if_neg hterminal]
    · have hno : ¬ (200 ≤ r.status ∧ r.status ≤ 399) := by omega
      have hterminal : ¬ (r.status ≠ 429 ∧ ¬ (500 ≤ r.status ∧ r.status ≤ 599)) := by omega
      simp only [finish, if_neg hno, if_neg hterminal]
    · have hno : ¬ (200 ≤ r.status ∧ r.status ≤ 399) := by omega
      have hterminal : r.status ≠ 429 ∧ ¬ (500 ≤ r.status ∧ r.status ≤ 599) := by omega
      have hclient : ¬ (400 ≤ r.status ∧ r.status ≤ 499) := by omega
      simp only [finish, if_neg hno, if_pos hterminal, if_neg hclient]

/-- What follows an attempt of a call whose context is not done. -/
theorem conclude_of_rules (call : Call) (length : Nat) (url : String) (now : Nat) :
    call.conclude attempt length url outcome now none =
      if isTerminal outcome ∨ call.budget.maxAttempts ≤ attempt then
        (.finished (result attempt outcome), closing attempt outcome)
      else
        (if pause call.budget attempt outcome = 0 then .building (attempt + 1) (some length)
          else .backingOff attempt length
            (Nanos.wake now (pause call.budget attempt outcome)),
          [.retrying url attempt call.budget.maxAttempts (summary outcome)
            (pause call.budget attempt outcome)]) := by
  rw [conclude_eq (by simp), decide_of_rules, finish_of_rules]
  by_cases hstop : isTerminal outcome ∨ call.budget.maxAttempts ≤ attempt
  · rw [if_pos hstop, if_pos hstop]
  · rw [if_neg hstop, if_neg hstop]

end Rules

end Call

/-! ## Attempts -/

namespace Pipeline

/-- What becomes of a request that may need a credential, and when: the request to send, or the
error that was given instead. -/
def authorize (p : Pipeline) (authenticated : Bool) (now : Nat) (request : Request) :
    Pipeline × Nat × Except TransportError Request :=
  if authenticated then
    let r := p.askCredential now
    (r.1, Nanos.seen now (r.2.due.getD now), r.2.answer.map (request.setHeader "Authorization"))
  else (p, now, .ok request)

/-- What becomes of a request that is sent, and when: the answer of the wire, or a timeout if it has
not been given when the time is up. -/
def exchange (p : Pipeline) (call : Call) (now : Nat) (request : Request) :
    Pipeline × Nat × Call.Outcome :=
  let r := p.send now call.context.serviceClass request
  let expires := Nanos.wake now call.budget.perCallTimeout
  let ended := Nanos.seen now ((r.2.due.map (min · expires)).getD expires)
  (r.1, ended, if r.2.isGiven ended then r.2.answer else .error .handlerTimeout)

/-- Scripts that leave contexts alone, with a provider that always answers. -/
structure Plain (p : Pipeline) : Prop where
  wire : ∀ cue ∈ p.wire, cue.cancels = false
  provider : ∀ cues, p.provider = some cues →
    ∀ cue ∈ cues, cue.cancels = false ∧ cue.hangs = false

end Pipeline

namespace Call

/-- One attempt of a call. -/
structure Attempt where
  /-- When its request was built. -/
  began : Nat
  /-- The request as it was built. -/
  request : Request
  /-- When a request was sent, and which. -/
  sent : Option (Nat × Request) := none
  outcome : Outcome
  ended : Nat

/-- An attempt that goes as the scripts have it.  Between the credential and the exchange it may be
kept waiting for tokens, and nothing is said about what that does to the limiter. -/
inductive Attempted (call : Call) (k began : Nat) (p : Pipeline) : Attempt → Pipeline → Prop where
  /-- The credential is refused. -/
  | refused {request : Request} {p' : Pipeline} {t : Nat} {e : TransportError}
      (hbuild : call.build k = .ok request)
      (hauth : p.authorize call.authenticated began request = (p', t, .error e))
      (l : Limiter Double) :
      Attempted call k began p { began, request, outcome := .error e, ended := t }
        { p' with limiter := l }
  /-- The request is sent. -/
  | exchanged {request request' : Request} {p' p'' : Pipeline} {t sent ended : Nat}
      {outcome : Outcome} (hbuild : call.build k = .ok request)
      (hauth : p.authorize call.authenticated began request = (p', t, .ok request'))
      (hsent : t ≤ sent) (hex : p'.exchange call sent request' = (p'', ended, outcome))
      (l : Limiter Double) :
      Attempted call k began p { began, request, sent := some (sent, request'), outcome, ended }
        { p'' with limiter := l }

/-- When a call goes on after a pause. -/
def resumption (now pause : Nat) : Nat :=
  if pause = 0 then now else Nanos.seen now (Nanos.wake now pause)

/-- The attempts of a call from the `k`-th one on, as the rules have it. -/
inductive Course (call : Call) : Nat → Nat → Pipeline → List Attempt → Pipeline → Prop where
  | last {k began : Nat} {p p' : Pipeline} {a : Attempt} (h : Attempted call k began p a p')
      (hstop : isTerminal a.outcome ∨ call.budget.maxAttempts ≤ k) : Course call k began p [a] p'
  | more {k began : Nat} {p p' p'' : Pipeline} {a : Attempt} {as : List Attempt}
      (h : Attempted call k began p a p') (hgo : isTerminal a.outcome = false)
      (hk : k < call.budget.maxAttempts)
      (rest : Course call (k + 1) (resumption a.ended (pause call.budget k a.outcome)) p' as p'') :
      Course call k began p (a :: as) p''

variable {call : Call} {k began : Nat} {p p' : Pipeline} {as : List Attempt}

/-- The call ends with the first terminal outcome, or with its budget. -/
theorem Course.count_from (h : Course call k began p as p') :
    ∃ a, as.getLast? = some a ∧ (∀ a ∈ as.dropLast, isTerminal a.outcome = false) ∧
      k + as.length ≤ max k call.budget.maxAttempts + 1 ∧
      (isTerminal a.outcome ∨ k + as.length = max k call.budget.maxAttempts + 1) := by
  induction h with
  | @last k began p p' a _ hstop =>
    refine ⟨a, rfl, by simp, by simp, hstop.imp_right fun hk => ?_⟩
    simp
    omega
  | @more k began p p' p'' a as _ hgo hk rest ih =>
    obtain ⟨b, hb, hdrop, hle, hend⟩ := ih
    cases as with
    | nil => exact absurd hb (by simp)
    | cons c cs =>
      refine ⟨b, by simpa using hb, ?_, by simp at hle ⊢; omega, hend.imp_right fun h => ?_⟩
      · intro d hd
        rcases List.mem_cons.1 hd with rfl | hd
        · exact hgo
        · exact hdrop d hd
      · simp at h ⊢
        omega

/-- The call makes at least one attempt and, if its budget allows any, at most that many.  All but
the last one are followed by another, and the last one is terminal or uses up the budget. -/
theorem Course.count (h : Course call 1 began p as p') :
    ∃ a, as.getLast? = some a ∧ (∀ a ∈ as.dropLast, isTerminal a.outcome = false) ∧
      as.length ≤ max 1 call.budget.maxAttempts ∧
      (isTerminal a.outcome ∨ as.length = max 1 call.budget.maxAttempts) := by
  obtain ⟨a, ha, hdrop, hle, hend⟩ := h.count_from
  exact ⟨a, ha, hdrop, by omega, hend.imp_right fun h => by omega⟩

/-! ## Traces -/

/-- What an attempt does, and when.  The events are those that follow it. -/
def Attempt.trace (call : Call) (kind : PoolKind) (events : List CallEvent) (a : Attempt) :
    List (Nat × Effect Double) :=
  (a.began, .built) ::
    (if call.authenticated then [(a.began, .askedCredential)] else []) ++
    (match a.sent with
    | some (t, request) =>
      [(t, .charged call.context.serviceClass kind call.context.cost), (t, .sent request),
        (a.ended, .fed call.context.serviceClass kind (feedback a.outcome))]
    | none => []) ++
    events.map (a.ended, .callEvent ·)

/-- What the attempts of a call do from the `k`-th one on, and when. -/
def trace (call : Call) (kind : PoolKind) : Nat → List Attempt → List (Nat × Effect Double)
  | _, [] => []
  | k, [a] => a.trace call kind (closing k a.outcome)
  | k, a :: b :: rest =>
    a.trace call kind [.retrying a.request.url k call.budget.maxAttempts (summary a.outcome)
      (pause call.budget k a.outcome)] ++ trace call kind (k + 1) (b :: rest)

end Call

end DriveDelta
