import Autocomplete.Proofs.Session.Frame

/-! What is told when a round ends: first of the servers that failed, then of the merged answers, unless
the user has left the line or there is nothing to show. -/
namespace Autocomplete

/-- Whether an observation tells the user, or whoever listens to the events, how a round ended. -/
def Observation.isOutcome : Observation → Bool
  | .call (.present ..) => true
  | .call (.notify ..) => true
  | .event (.requestFailed ..) => true
  | .event (.resultsShown ..) => true
  | _ => false

namespace Session

/-- What was told of the ends of rounds. -/
def outcomes (s : Session) : List Observation := s.trace.filter Observation.isOutcome

theorem outcomes_call (s : Session) (c : Call) : (s.call c).outcomes =
    s.outcomes ++ if (Observation.call c).isOutcome then [.call c] else [] := by
  simp only [outcomes, call, List.filter_append]
  split
  next h => simp [h]
  next h => simp [h]

theorem outcomes_emit (s : Session) (e : Event) : (s.emit e).outcomes =
    s.outcomes ++ if (Observation.event e).isOutcome then [.event e] else [] := by
  simp only [outcomes, emit, List.filter_append]
  split
  next h => simp [h]
  next h => simp [h]

theorem outcomes_edit (s : Session) (cause : EditCause) (start stop : Cursor) (text : List Char) :
    (s.edit cause start stop text).outcomes = s.outcomes := by
  simp [outcomes, edit, Observation.isOutcome]

theorem outcomes_note (s : Session) (n : Note) : (s.note n).outcomes = s.outcomes := by
  simp [outcomes, note, Observation.isOutcome]

theorem outcomes_logAll (s : Session) (records : List LogRecord) :
    (s.logAll records).outcomes = s.outcomes := by
  simp [outcomes, logAll, Observation.isOutcome]

theorem outcomes_log (s : Session) (level : Level) (area message : String)
    (fields : List (String × Json)) : (s.log level area message fields).outcomes = s.outcomes :=
  s.outcomes_logAll [⟨level, "quill_completion::" ++ area, message, fields⟩]

theorem report_reported (s : Session) (severity : Severity) (message : String) :
    (s.report severity message).reported =
      if s.reported.contains message then s.reported else message :: s.reported := by
  unfold report
  split <;> rfl

theorem report_outcomes (s : Session) (severity : Severity) (message : String) :
    (s.report severity message).outcomes = s.outcomes ++
      if s.reported.contains message then [] else [.call (.notify severity message)] := by
  unfold report
  split
  · simp
  · change (Session.call _ _).outcomes = _
    rw [outcomes_call, outcomes_log]
    rfl

/-- What is told of a failure depends on what was told before. -/
theorem reportFailure_told (id : RequestId) (failure : ServerId × ResponseError) {s t : Session}
    (hr : t.reported = s.reported) (ho : t.outcomes = s.outcomes) :
    (reportFailure id t failure).reported = (reportFailure id s failure).reported ∧
      (reportFailure id t failure).outcomes = (reportFailure id s failure).outcomes := by
  unfold reportFailure
  dsimp only
  split
  · exact ⟨hr, by rw [outcomes_emit, outcomes_emit, ho]⟩
  · constructor
    · simp only [emit, report_reported, hr]
    · simp only [outcomes_emit, report_outcomes, hr, ho]

theorem reportFailures_told (id : RequestId) (failures : List (ServerId × ResponseError))
    {s t : Session} (hr : t.reported = s.reported) (ho : t.outcomes = s.outcomes) :
    (failures.foldl (reportFailure id) t).outcomes =
      (failures.foldl (reportFailure id) s).outcomes := by
  induction failures generalizing s t with
  | nil => exact ho
  | cons failure rest ih =>
    obtain ⟨hr, ho⟩ := reportFailure_told id failure hr ho
    exact ih hr ho

theorem present_outcomes (s : Session) (round : Round) (merged : Merged) (roundTrip : Duration) :
    (s.present round merged roundTrip).outcomes = s.outcomes ++
      [.call (.present merged.startColumn merged.entries),
       .event (.resultsShown round.id merged.startColumn merged.entries.length merged.isIncomplete
          roundTrip.milliseconds)] := by
  simp [outcomes, present, log, call, emit, Observation.isOutcome]

/-- What is told when a round ends, after the problems of the servers. -/
def shown (s : Session) (round : Round) : List Observation :=
  let merged := s.mergeRound round
  if merged.entries.isEmpty && !s.popup.visible then []
  else [.call (.present merged.startColumn merged.entries),
    .event (.resultsShown round.id merged.startColumn merged.entries.length merged.isIncomplete
      (Duration.ofMilliseconds (s.now - round.started)).milliseconds)]

/-- A round that the user has left tells nothing; any other one first tells of the errors. -/
theorem finishRound_outcomes (s : Session) (round : Round) : (s.finishRound round).outcomes =
    if s.buffer.inserting = false ∨ s.buffer.cursor.line ≠ round.cursor.line then s.outcomes
    else ((s.mergeRound round).errors.foldl (reportFailure round.id) s).outcomes ++
      s.shown round := by
  unfold finishRound
  extract_lets t about merged roundTrip u v w x
  by_cases hi : s.buffer.inserting = false
  · have ht : (!t.buffer.inserting) = true := by simpa [t] using hi
    rw [if_pos ht, if_pos (.inl hi)]
    exact t.outcomes_log ..
  · have ht : ¬ (!t.buffer.inserting) = true := by simpa [t] using hi
    rw [if_neg ht]
    by_cases hl : s.buffer.cursor.line ≠ round.cursor.line
    · rw [if_pos hl, if_pos (.inr hl)]
      exact t.outcomes_log ..
    · rw [if_neg hl, if_neg (not_or.mpr ⟨hi, hl⟩)]
      have hw : w.outcomes = (merged.errors.foldl (reportFailure round.id) s).outcomes :=
        reportFailures_told round.id merged.errors rfl (t.outcomes_logAll _)
      have hx : x.popup.visible = s.popup.visible := by
        have hf := reportFailures_frame round.id merged.errors v
        change w.popup.visible = _
        rw [show w = _ from hf]
        rfl
      have hm : s.mergeRound round = merged := rfl
      unfold shown
      dsimp only
      rw [hm, ← hw, hx]
      split
      · rw [x.outcomes_log, List.append_nil]
        rfl
      · rw [present_outcomes]
        rfl

end Session
end Autocomplete
