import Autocomplete.Proofs.Session.History

/-! Every completion request that was ever sent is pending, answered or cancelled, and never two of
these. What a transport is told to cancel is told once, and before another round asks. -/
namespace Autocomplete

inductive Standing where
  | pending | answered | cancelled

namespace Session

/-- A transport that cannot cancel is never told to. -/
def HasStanding (s : Session) (n : Nat) (r : Request) : Standing → Prop
  | .pending => s.Pending r.server n ∧ r.live = true ∧ s.cancels.count n = 0
  | .answered => n ∈ s.recorded ∧ s.cancels.count n = 0
  | .cancelled => r.live = false ∧ n ∉ s.recorded ∧
      s.cancels.count n = if s.cancellable then 1 else 0

theorem Coherent.standing {s : Session} (h : Coherent s) {n : Nat} (hn : n ∈ s.asked) :
    ∃ r, s.requests[n]? = some r ∧ ∃! standing, s.HasStanding n r standing := by
  obtain ⟨r, hr, hc⟩ := h.accounts.asked n hn
  have hruns : s.cancels.count n = r.handle.runs := by
    rw [h.accounts.runs, hr]
    rfl
  refine ⟨r, hr, ?_⟩
  cases h.accounts.settled n r hr hc with
  | pending hp hu hd =>
    have hlive := h.live r.server n r hp hr
    refine ⟨.pending, ⟨hp, hlive, by rw [hruns, hd, freshHandle_runs]⟩, fun standing hs => ?_⟩
    cases standing with
    | pending => rfl
    | answered => exact absurd hs.1 hu
    | cancelled =>
      have hdead := hs.1
      rw [hlive] at hdead
      exact Bool.noConfusion hdead
  | answered hp hrec hd =>
    refine ⟨.answered, ⟨hrec, by rw [hruns, hd, freshHandle_runs]⟩, fun standing hs => ?_⟩
    cases standing with
    | pending => exact absurd hs.1 hp
    | answered => rfl
    | cancelled => exact absurd hrec hs.2.1
  | cancelled hp hu hdead hd =>
    have hcount : s.cancels.count n = if s.cancellable then 1 else 0 := by
      rw [hruns, hd, freshHandle]
      split <;> rfl
    refine ⟨.cancelled, ⟨hdead, hu, hcount⟩, fun standing hs => ?_⟩
    cases standing with
    | pending => exact absurd hs.1 hp
    | answered => exact absurd hs.1 hu
    | cancelled => rfl

/-- In every run, each completion request has one standing, those that are pending belong to one
round, and no request is cancelled any more once a later round has asked. -/
theorem completionRequests_accounted (setup : Setup) (actions : List Action) :
    let s := setup.session.after actions
    (∀ n ∈ s.asked, ∃ r, s.requests[n]? = some r ∧ ∃! standing, s.HasStanding n r standing) ∧
      (∃ id, ∀ server n, s.Pending server n → s.purpose? n = some (.completion id)) ∧
      ∀ earlier later n, s.trace = earlier ++ .call (.cancel n) :: later → ¬ Outdated earlier n := by
  intro s
  have h : Historic s := after_historic setup actions
  refine ⟨fun n hn => h.coherent.standing hn, ?_, h.prompt⟩
  cases hc : s.round with
  | none => exact ⟨⟨0⟩, fun server n hp => absurd hp (not_pending_of_round hc server n)⟩
  | some c =>
    refine ⟨c.id, fun server n hp => ?_⟩
    exact h.coherent.ofRound c server n hc ((pending_iff hc server n).mp hp)

end Session
end Autocomplete
