import DriveDelta.Proofs.Calls.Traffic

/-!
# Cancellation stops a call

A context may become done while its call waits, while somebody else has the turn, or while the call
is being given an answer.  From then on the call begins nothing more, and it ends in the
cancellation.  Only a response that has been delivered, and that would have ended the call anyway,
is still returned.

## What is here

* `Traffic.run_of_done`: what a call whose context is done can still do;
* `Traffic.Delivers`, the exception, and `Traffic.step_to_done`, the move during which the context
  becomes done;
* `Traffic.cancellation_stops`.
-/

set_option autoImplicit false

namespace DriveDelta

namespace Traffic

variable {α : Type} [Number α] {calls : Nat → Call} {s s₁ t : Traffic α} {m : Move}
  {ms : List Move} {i : Nat}

/-! ## After the context is done -/

omit [Number α] in
theorem begun_after_quiet {forest : Forest} {r : Call.Step α} (h : Call.Quiet r.effects) :
    (s.after i forest r).begun i = s.begun i := by
  have hnone : r.effects.filter (·.begins) = [] :=
    List.filter_eq_nil_iff.2 fun e he => by simp [h e he]
  rw [begun, effects_after_self, List.filter_append, hnone, List.append_nil]
  rfl

omit [Number α] in
theorem begun_after_of_ne {forest : Forest} {r : Call.Step α} {j : Nat} (h : j ≠ i) :
    (s.after i forest r).begun j = s.begun j := by
  rw [begun, effects_after_of_ne h]
  rfl

/-- A call whose context is done is left alone by a move, or ended by it. -/
theorem step_of_done (hdone : (s.status calls i).isSome) (h : s.step calls m = some t) :
    t.begun i = s.begun i ∧ (t.phase i = s.phase i ∨
      (∀ result, s.phase i ≠ .finished result) ∧
        ∃ reason, t.phase i = .finished (.error (.cancelled reason))) := by
  rcases step_cases h with ⟨j, forest, incoming, r, -, rfl, -, hr⟩ | ⟨-, hphase, htrace⟩
  · by_cases hj : i = j
    · subst hj
      obtain ⟨reason, hreason⟩ := Option.isSome_iff_exists.1 hdone
      by_cases hf : ∃ result, s.phase i = .finished result
      · obtain ⟨result, hf⟩ := hf
        rw [hf] at hr
        exact absurd hr (by simp [Call.step])
      · have hnf : ∀ result, s.phase i ≠ .finished result := fun result he => hf ⟨result, he⟩
        rw [hreason, Call.step_of_done _ _ _ _ _ hnf] at hr
        obtain rfl := Option.some_inj.1 hr
        exact ⟨begun_after_quiet (by simp [Call.Quiet]), .inr ⟨hnf, reason, phase_after_self⟩⟩
    · exact ⟨begun_after_of_ne hj, .inl (phase_after_of_ne hj)⟩
  · rw [begun, effects, htrace, hphase]
    exact ⟨rfl, .inl rfl⟩

/-- However long a run is, a call whose context is done begins nothing in it, and it can only be
ended by the cancellation. -/
theorem run_of_done (hdone : (s.status calls i).isSome) (h : s.run calls ms = some t) :
    (t.status calls i).isSome ∧ t.begun i = s.begun i ∧ (t.phase i = s.phase i ∨
      (∀ result, s.phase i ≠ .finished result) ∧
        ∃ reason, t.phase i = .finished (.error (.cancelled reason))) := by
  refine run_induction (P := fun u => (u.status calls i).isSome ∧ u.begun i = s.begun i ∧
    (u.phase i = s.phase i ∨ (∀ result, s.phase i ≠ .finished result) ∧
      ∃ reason, u.phase i = .finished (.error (.cancelled reason))))
    h ⟨hdone, rfl, .inl rfl⟩ fun m u u' hu hstep => ?_
  obtain ⟨hdone', hbegun, hphase⟩ := hu
  obtain ⟨hbegun', hphase'⟩ := step_of_done hdone' hstep
  refine ⟨status_mono hstep hdone', hbegun'.trans hbegun, ?_⟩
  rcases hphase with heq | ⟨hnf, reason, hend⟩
  · rw [← heq]
    exact hphase'
  · -- it has ended, so the move has left it alone
    rcases hphase' with heq' | ⟨hnf', -⟩
    · exact .inr ⟨hnf, reason, heq'.trans hend⟩
    · exact absurd hend (hnf' _)

/-! ## While the context becomes done -/

/-- The move delivers a response that ends the call, with the result that it has for it. -/
def Delivers (calls : Nat → Call) (s : Traffic α) (m : Move) (i : Nat)
    (result : Except Error Response) : Prop :=
  ∃ r tokens attempt length url kind expires, m = .response i (.ok r) tokens ∧
    s.status calls i = none ∧ s.phase i = .exchanging attempt length url kind expires ∧
    (calls i).budget.decide attempt (.ofResponse r) = .stop ∧
    result = (Call.finish (.ok r) (.ofResponse r) attempt).1

/-- Giving a response to a call concludes its exchange. -/
theorem response_eq {answer : Call.Outcome} {tokens : List Nat}
    (h : s.step calls (.response i answer tokens) = some s₁) :
    ∃ attempt length url kind expires, s.status calls i = none ∧
      s.phase i = .exchanging attempt length url kind expires ∧
      s₁ = s.after i (tokens.foldl Forest.cancel s.forest)
        ((calls i).concluded s.limiter s.now attempt length url kind answer
          (s₁.status calls i)) := by
  simp only [step] at h
  split at h
  · rename_i hc
    obtain ⟨hstatus, hphase⟩ := hc
    rw [play, hstatus] at h
    cases hp : s.phase i with
    | exchanging attempt length url kind expires =>
      rw [hp] at h
      obtain rfl := Option.some_inj.1 h
      exact ⟨attempt, length, url, kind, expires, hstatus, rfl, rfl⟩
    | _ => simp [hp, Call.Phase.awaitsResponse] at hphase
  · exact absurd h (by simp)

/-- Giving a credential to a call lets it go on; refusing one concludes its attempt. -/
theorem credential_eq {answer : Except TransportError String} {tokens : List Nat}
    (h : s.step calls (.credential i answer tokens) = some s₁) :
    ∃ attempt length request, s.status calls i = none ∧
      s.phase i = .authorizing attempt length request ∧
      s₁ = s.after i (tokens.foldl Forest.cancel s.forest)
        ((calls i).authorized s.limiter s.now attempt length request answer
          (s₁.status calls i)) := by
  simp only [step] at h
  split at h
  · rename_i hc
    obtain ⟨hstatus, hphase⟩ := hc
    rw [play, hstatus] at h
    cases hp : s.phase i with
    | authorizing attempt length request =>
      rw [hp] at h
      cases answer with
      | ok value | error e =>
        obtain rfl := Option.some_inj.1 h
        exact ⟨attempt, length, request, hstatus, rfl, rfl⟩
    | _ => simp [hp, Call.Phase.awaitsCredential] at hphase
  · exact absurd h (by simp)

/-- A response that ends the call is returned, whatever the status of the context. -/
theorem Delivers.phase_eq {result : Except Error Response} (h : Delivers calls s m i result)
    (hstep : s.step calls m = some s₁) : s₁.phase i = .finished result := by
  obtain ⟨r, tokens, attempt, length, url, kind, expires, rfl, -, hphase, hstop, rfl⟩ := h
  obtain ⟨_, _, _, _, _, -, hphase', heq⟩ := response_eq hstep
  rw [hphase] at hphase'
  cases hphase'
  rw [heq, phase_after_self, Call.concluded, Call.conclude_eq (by simp)]
  simp only [Decision.ofOutcome, hstop]

/-- An error that is given to a call whose context is then done is not what the call ends with. -/
theorem phase_of_error {e : TransportError} {tokens : List Nat} {reason : CancelReason}
    (hm : m = .credential i (.error e) tokens ∨ m = .response i (.error e) tokens)
    (hstep : s.step calls m = some s₁) (hdone : s₁.status calls i = some reason) :
    s₁.phase i = .finished (.error (.cancelled reason)) := by
  rcases hm with rfl | rfl
  · obtain ⟨_, _, _, -, -, heq⟩ := credential_eq hstep
    rw [heq, phase_after_self, hdone, Call.authorized, Call.conclude_error_of_done]
  · obtain ⟨_, _, _, _, _, -, -, heq⟩ := response_eq hstep
    rw [heq, phase_after_self, hdone, Call.concluded, Call.conclude_error_of_done]

/-- A credential given to a call whose context is then done lets it go on; a refusal ends it by the
cancellation. -/
theorem credential_ended {answer : Except TransportError String} {tokens : List Nat}
    {reason : CancelReason} {result : Except Error Response}
    (hstep : s.step calls (.credential i answer tokens) = some s₁)
    (hdone : s₁.status calls i = some reason) (hend : s₁.phase i = .finished result) :
    result = .error (.cancelled reason) := by
  cases answer with
  | ok value =>
    obtain ⟨_, _, _, -, -, heq⟩ := credential_eq hstep
    rw [heq, phase_after_self] at hend
    exact absurd hend (by simp [Call.authorized])
  | error e =>
    rw [phase_of_error (.inl rfl) hstep hdone] at hend
    exact (Call.Phase.finished.inj hend).symm

/-- If the end of an exchange ends a call whose context is then done, it delivers a response or is
the cancellation. -/
theorem response_ended {answer : Call.Outcome} {tokens : List Nat} {reason : CancelReason}
    {result : Except Error Response}
    (hstep : s.step calls (.response i answer tokens) = some s₁)
    (hdone : s₁.status calls i = some reason) (hend : s₁.phase i = .finished result) :
    Delivers calls s (.response i answer tokens) i result ∨
      result = .error (.cancelled reason) := by
  cases answer with
  | error e =>
    rw [phase_of_error (.inr rfl) hstep hdone] at hend
    exact .inr (Call.Phase.finished.inj hend).symm
  | ok r =>
    obtain ⟨attempt, length, url, kind, expires, hstatus, hphase, heq⟩ := response_eq hstep
    rw [heq, phase_after_self, Call.concluded, Call.conclude_eq (by simp)] at hend
    cases hd : (calls i).budget.decide attempt (.ofResponse r) with
    | stop =>
      simp only [Decision.ofOutcome, hd] at hend
      exact .inl ⟨r, tokens, attempt, length, url, kind, expires, rfl, hstatus, hphase, hd,
        (Call.Phase.finished.inj hend).symm⟩
    | again pause =>
      simp only [Decision.ofOutcome, hd] at hend
      split at hend <;> exact absurd hend (by simp)

/-- The move after which a context is done begins nothing for its call, and if it ends it, then by
the cancellation or with a response that it delivers. -/
theorem step_to_done (hstep : s.step calls m = some s₁) (hdone : (s₁.status calls i).isSome) :
    s₁.begun i = s.begun i ∧ ∀ result, s₁.phase i = .finished result →
      s.phase i = .finished result ∨ Delivers calls s m i result ∨
        ∃ reason, result = .error (.cancelled reason) := by
  by_cases hs : (s.status calls i).isSome
  · obtain ⟨hbegun, hphase⟩ := step_of_done hs hstep
    refine ⟨hbegun, fun result hend => ?_⟩
    rcases hphase with heq | ⟨-, reason, heq⟩
    · exact .inl (heq ▸ hend)
    · rw [heq] at hend
      exact .inr (.inr ⟨reason, (Call.Phase.finished.inj hend).symm⟩)
  · obtain ⟨reason, hreason⟩ := Option.isSome_iff_exists.1 hdone
    by_cases hm : m.call? = some i
    · cases m with
      | turn j =>
        -- nothing happens to the context while the call has its turn
        obtain rfl : j = i := Option.some_inj.1 hm
        obtain ⟨r, -, rfl⟩ := Option.map_eq_some_iff.1 hstep
        exact absurd hdone hs
      | credential j answer tokens =>
        obtain rfl : j = i := Option.some_inj.1 hm
        obtain ⟨_, _, _, -, -, heq⟩ := credential_eq hstep
        refine ⟨?_, fun result hend =>
          .inr (.inr ⟨reason, credential_ended hstep hreason hend⟩)⟩
        rw [heq]
        exact begun_after_quiet (Call.quiet_authorized _ _ _ _ _ _ _ _)
      | response j answer tokens =>
        obtain rfl : j = i := Option.some_inj.1 hm
        obtain ⟨_, _, _, _, _, -, -, heq⟩ := response_eq hstep
        refine ⟨?_, fun result hend =>
          .inr ((response_ended hstep hreason hend).imp_right fun h => ⟨reason, h⟩)⟩
        rw [heq]
        exact begun_after_quiet (Call.quiet_concluded _ _ _ _ _ _ _ _ _)
      | _ => exact absurd hm (by simp [Move.call?])
    · rcases step_cases hstep with ⟨j, forest, incoming, r, hj, rfl, -, -⟩ | ⟨-, hphase, htrace⟩
      · have hne : i ≠ j := fun he => hm (he ▸ hj)
        exact ⟨begun_after_of_ne hne, fun result hend => .inl (phase_after_of_ne hne ▸ hend)⟩
      · rw [begun, effects, htrace, hphase]
        exact ⟨rfl, fun result hend => .inl hend⟩

/-! ## Cancellation -/

/-- **Cancellation stops a call.**  Take any traffic, any move after which the context of a call is
done, and any run from there.  The call begins nothing during the move or afterwards: it builds no
request, asks for no credential, takes no tokens and sends nothing.  If the move delivers a response
that ends the call, that is its result.  Otherwise, unless it had ended before, its result is the
cancellation, also when the move brought an error; and as long as it has not ended, its next turn
ends it. -/
theorem cancellation_stops (hstep : s.step calls m = some s₁)
    (hdone : (s₁.status calls i).isSome) (hrun : s₁.run calls ms = some t) :
    t.begun i = s.begun i ∧
    (∀ result, Delivers calls s m i result → t.phase i = .finished result) ∧
    (∀ result, t.phase i = .finished result → s.phase i = .finished result ∨
      Delivers calls s m i result ∨ ∃ reason, result = .error (.cancelled reason)) ∧
    (∀ e tokens, m = .credential i (.error e) tokens ∨ m = .response i (.error e) tokens →
      ∃ reason, s₁.status calls i = some reason ∧
        t.phase i = .finished (.error (.cancelled reason))) ∧
    ((∀ result, t.phase i ≠ .finished result) →
      ∃ reason t', t.status calls i = some reason ∧ t.step calls (.turn i) = some t' ∧
        t'.phase i = .finished (.error (.cancelled reason))) := by
  obtain ⟨hdone', hbegun, hphase⟩ := run_of_done hdone hrun
  obtain ⟨hbegun₁, hended⟩ := step_to_done hstep hdone
  have hkeep {result : Except Error Response} (h : s₁.phase i = .finished result) :
      t.phase i = .finished result := by
    rcases hphase with heq | ⟨hnf, -⟩
    · rw [heq, h]
    · exact absurd h (hnf result)
  refine ⟨hbegun.trans hbegun₁, fun result hd => hkeep (hd.phase_eq hstep), ?_, ?_, ?_⟩
  · intro result hend
    rcases hphase with heq | ⟨-, reason, heq⟩
    · exact hended result (heq ▸ hend)
    · rw [heq] at hend
      cases hend
      exact .inr (.inr ⟨reason, rfl⟩)
  · intro e tokens hm
    obtain ⟨reason, hreason⟩ := Option.isSome_iff_exists.1 hdone
    exact ⟨reason, hreason, hkeep (phase_of_error hm hstep hreason)⟩
  · intro hnf
    obtain ⟨reason, hreason⟩ := Option.isSome_iff_exists.1 hdone'
    have hturn : t.step calls (.turn i)
        = some (t.after i t.forest ⟨t.limiter, .finished (.error (.cancelled reason)), []⟩) := by
      rw [step, play, hreason, Call.step_of_done _ _ _ _ _ hnf]
      rfl
    exact ⟨reason, _, hreason, hturn, phase_after_self⟩

/-- Calls that all have the context of one token. -/
def plainCall : Call where
  context := { token := 0 }
  budget := .standard
  build _ := .ok { method := .get, url := "https://host/items" }
  authenticated := false

/-- Every call waits for its response. -/
def allWaiting : Traffic Double where
  limiter := .new .builtin 0
  forest := { nodes := [⟨none, false⟩] }
  phase _ := .exchanging 1 0 "https://host/items" .static Nanos.second

/-- The connection of a call is reset while its token is being cancelled.  Time passes, and another
call has its turn; the first one has ended in the cancellation. -/
theorem cancellation_stops_reset :
    ∃ s₁ t, allWaiting.step (fun _ => plainCall) (.response 0 (.error .connectionReset) [0])
        = some s₁ ∧
      s₁.status (fun _ => plainCall) 0 = some .cancelled ∧
      s₁.run (fun _ => plainCall) [.pass Nanos.second, .turn 1] = some t ∧
      t.begun 0 = allWaiting.begun 0 ∧
      ∃ reason, t.phase 0 = .finished (.error (.cancelled reason)) := by
  refine ⟨_, _, rfl, rfl, rfl, ?_⟩
  obtain ⟨hbegun, -, -, herror, -⟩ := @cancellation_stops Double _ (fun _ => plainCall)
    allWaiting _ _ (.response 0 (.error .connectionReset) [0]) [.pass Nanos.second, .turn 1] 0
    rfl rfl rfl
  obtain ⟨reason, -, hend⟩ := herror _ _ (.inr rfl)
  exact ⟨hbegun, reason, hend⟩

end Traffic

end DriveDelta
