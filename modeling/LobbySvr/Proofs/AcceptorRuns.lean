/-
Module: LobbySvr.Proofs.AcceptorRuns
Layer: Proofs
Purpose: The accept loop over runs of any length.  `accept_handler` does nothing on an error, so the first
  accept that fails is the last one the server makes: one accept stays outstanding exactly as long as every
  completion succeeds and its connection can be started.
Imports: LobbySvr.Net.NetServiceAcceptor, LobbySvr.Foundation.Runs
Trusted boundary: none
Main exports: Handled, Armed, handled_iff, armed_complete, acceptor_keeps_accepting_iff
Open obligations: none
-/
import LobbySvr.Net.NetServiceAcceptor
import LobbySvr.Foundation.Runs

namespace LobbySvr.Proofs

open LobbySvr.Foundation
open LobbySvr.Net

/-- What is asked of one completion: an accept is outstanding when its handler is over, and if it was a
    success, `onAccept` and then `start_accept` have been called for its connection, once each. -/
structure Handled (acceptor : NetServiceAcceptor) (completion : AcceptCompletion) : Prop where
  rearmed : (acceptor.complete completion).accepting.length = 1
  started : completion.ec = noError → ∀ conn, acceptor.accepting = [conn] →
    (acceptor.complete completion).calls = acceptor.calls ++ [.onAccept conn, .startAccept conn]
  once : completion.ec = noError → ∀ conn, acceptor.accepting = [conn] →
    (acceptor.complete completion).calls.count (.onAccept conn) = 1 ∧
      (acceptor.complete completion).calls.count (.startAccept conn) = 1

/-- A completion whose handler gets as far as the next `async_accept`. -/
def AcceptCompletion.Succeeds (completion : AcceptCompletion) : Prop :=
  completion.ec = noError ∧ completion.startThrows = false

/-- One accept is outstanding, and its connection is newer than all those accepted. -/
structure Armed (acceptor : NetServiceAcceptor) : Prop where
  accepting : ∃ conn, acceptor.accepting = [conn] ∧ conn + 1 = acceptor.created
  earlier : ∀ call ∈ acceptor.calls, call.conn + 1 < acceptor.created

theorem acceptWait_armed : Armed NetServiceAcceptor.acceptWait :=
  ⟨⟨0, rfl, rfl⟩, by simp [NetServiceAcceptor.acceptWait, NetServiceAcceptor.asyncAccept]⟩

section

variable {acceptor : NetServiceAcceptor} {completion : AcceptCompletion} {conn : Nat}

theorem complete_failure (accepting : acceptor.accepting = [conn]) (failed : completion.ec ≠ noError) :
    acceptor.complete completion = { acceptor with accepting := [] } := by
  simp only [NetServiceAcceptor.complete, accepting, NetServiceAcceptor.acceptHandler, if_neg failed]

theorem complete_throws (accepting : acceptor.accepting = [conn]) (accepted : completion.ec = noError)
    (throws : completion.startThrows = true) :
    acceptor.complete completion =
      { acceptor with
        accepting := []
        calls := acceptor.calls ++ [.onAccept conn, .startAccept conn] } := by
  simp only [NetServiceAcceptor.complete, accepting, NetServiceAcceptor.acceptHandler, if_pos accepted,
    throws, if_true]

theorem complete_success (accepting : acceptor.accepting = [conn])
    (succeeds : AcceptCompletion.Succeeds completion) :
    acceptor.complete completion =
      { acceptor with
        created := acceptor.created + 1
        accepting := [acceptor.created]
        calls := acceptor.calls ++ [.onAccept conn, .startAccept conn] } := by
  simp only [NetServiceAcceptor.complete, accepting, NetServiceAcceptor.acceptHandler,
    NetServiceAcceptor.asyncAccept, if_pos succeeds.1, succeeds.2]
  rfl

/-- A call for a connection that is not accepted yet has not been made. -/
theorem Armed.count_calls (armed : Armed acceptor) (call : AcceptCall)
    (newest : call.conn + 1 = acceptor.created) : acceptor.calls.count call = 0 := by
  apply List.count_eq_zero_of_not_mem
  intro member
  have earlier := armed.earlier call member
  omega

/-- With an accept outstanding, a completion is handled exactly when it succeeds. -/
theorem handled_iff (armed : Armed acceptor) :
    Handled acceptor completion ↔ AcceptCompletion.Succeeds completion := by
  obtain ⟨conn, accepting, newest⟩ := armed.accepting
  constructor
  · intro handled
    have rearmed := handled.rearmed
    by_cases accepted : completion.ec = noError
    · cases throws : completion.startThrows with
      | false => exact ⟨accepted, throws⟩
      | true =>
          rw [complete_throws accepting accepted throws] at rearmed
          cases rearmed
    · rw [complete_failure accepting accepted] at rearmed
      cases rearmed
  · intro succeeds
    have later := complete_success accepting succeeds
    have same : ∀ other, acceptor.accepting = [other] → other = conn := by
      intro other alone
      rw [accepting] at alone
      exact (List.singleton_inj.mp alone).symm
    constructor
    · rw [later]
      rfl
    · intro _ other alone
      rw [later, same other alone]
    · intro _ other alone
      have none := armed.count_calls (.onAccept conn) newest
      have noStart := armed.count_calls (.startAccept conn) newest
      rw [later, same other alone]
      simp [List.count_append, none, noStart]

/-- A completion that succeeds leaves the acceptor armed again. -/
theorem armed_complete (armed : Armed acceptor) (succeeds : AcceptCompletion.Succeeds completion) :
    Armed (acceptor.complete completion) := by
  obtain ⟨conn, accepting, newest⟩ := armed.accepting
  rw [complete_success accepting succeeds]
  constructor
  · exact ⟨acceptor.created, rfl, rfl⟩
  · intro call member
    change call.conn + 1 < acceptor.created + 1
    rcases List.mem_append.mp member with before | added
    · have := armed.earlier call before
      omega
    · simp only [List.mem_cons, List.not_mem_nil, or_false] at added
      rcases added with rfl | rfl
      · simp only [AcceptCall.conn]
        omega
      · simp only [AcceptCall.conn]
        omega

end

/-- In every run of completions, each one is handled with an accept outstanding behind it exactly when all of
    them succeed. -/
theorem acceptor_keeps_accepting_iff (completions : List AcceptCompletion) :
    EveryStep NetServiceAcceptor.complete Handled NetServiceAcceptor.acceptWait completions ↔
      ∀ completion ∈ completions, AcceptCompletion.Succeeds completion := by
  rw [← everyStep_labels NetServiceAcceptor.complete NetServiceAcceptor.acceptWait]
  apply everyStep_iff Armed
  · intro acceptor completion armed
    exact handled_iff armed
  · intro acceptor completion armed succeeds
    exact armed_complete armed succeeds
  · exact acceptWait_armed

/-- One accept that finds no file descriptor left (`EMFILE`), and none is outstanding any more. -/
theorem failed_accept_is_the_last :
    ¬ EveryStep NetServiceAcceptor.complete Handled NetServiceAcceptor.acceptWait
      [⟨noError, false⟩, ⟨24, false⟩] := by
  rintro ⟨-, handled, -⟩
  exact absurd handled.rearmed (by decide)

end LobbySvr.Proofs
