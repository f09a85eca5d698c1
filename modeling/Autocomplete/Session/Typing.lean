import Autocomplete.Session.SignatureHelp

/-!
What a session does when the user types, deletes, moves the cursor or asks for results.
-/
namespace Autocomplete.Session

/-- Asks for results at once. -/
def triggerCompletion (s : Session) : Session := s.dropCompletionTimer.startRound .manual

/-- The time between two requests while the popup is open: what the servers were attached with, else
what they take to answer, else the window before a first request. -/
def subsequentWindow (s : Session) : Duration :=
  match longest (s.bindings.values.filterMap (·.subsequent)) with
  | some window => window
  | none =>
    match s.latency.estimate with
    | some window => window
    | none => (longest (s.bindings.values.map (·.leading))).getD s.config.leading

/-- Asks for results as soon as the window since the last request is over. -/
def scheduleSubsequent (s : Session) (trigger : Trigger) : Session :=
  let window := s.subsequentWindow
  let elapsed := match s.lastRequest with
    | some last => Duration.ofMilliseconds (s.now - last)
    | none => window
  let wait := window - elapsed
  let s := s.dropCompletionTimer
  if wait = 0 then s.startRound trigger else s.armCompletion wait trigger .subsequent

/-- A character was typed while the popup is hidden. A timer that is armed already stays as it is. -/
def scheduleLeading (s : Session) (c : Char) : Session :=
  match longest ((s.bindings.values.filter (·.isTrigger c)).map (·.leading)) with
  | none => s
  | some delay =>
    if s.completionTimer.isSome then s.log .trace "engine" "Leading debounce already armed"
    else s.armCompletion delay (.character c) .leading

/-- A character was typed while the popup is visible. -/
def refreshVisible (s : Session) : Session :=
  if s.isIncomplete then s.scheduleSubsequent .incomplete
  else if s.bindings.values.any (·.fuzzy) then s.scheduleSubsequent .refresh
  else s

/-- A character was put into the buffer. -/
def charInserted (s : Session) (c : Char) : Session :=
  if s.bindings.isEmpty then s
  else
    let s := if s.config.signatureHelp then s.scheduleSignatureHelp c else s
    if s.popup.visible then s.refreshVisible else s.scheduleLeading c

/-- Text left of the cursor was deleted. Results are asked for again unless the cursor has left the
place where they were asked for. -/
def textDeleted (s : Session) : Session :=
  if !s.config.triggerOnDelete || s.bindings.isEmpty then s
  else
    let cursor := s.buffer.cursor
    let qualifies := match s.tracked with
      | some tracked => tracked.line == cursor.line && tracked.column ≤ cursor.column
      | none => false
    if qualifies then
      s.dropCompletionTimer.armCompletion s.config.deleteRetrigger .deletion .leading
    else { s with tracked := none }

/-- The cursor was moved. -/
def cursorMoved (s : Session) : Session :=
  match s.tracked with
  | some tracked =>
    if tracked.line ≠ s.buffer.cursor.line then { s with tracked := none } else s
  | none => s

/-- Stops all timers, gives up all requests of both kinds, and forgets all but the tracked cursor. -/
def reset (s : Session) (reason : CancelReason) : Session :=
  let s := s.dropCompletionTimer.cancelSignatureHelp.giveUpRound reason
  { s with lastRequest := none, isIncomplete := false, suppressDone := false,
           expandSnippet := false }

/-- The user stopped typing into the buffer. -/
def insertLeave (s : Session) : Session := s.reset .insertLeave

/-- Accepts the selected entry, to be expanded as a snippet; there is none without a visible popup. -/
def acceptPending (s : Session) : Session × Bool :=
  if s.popup.visible then ({ s with expandSnippet := true }.call .confirm, true) else (s, false)

end Autocomplete.Session
