import Autocomplete.Proofs.Session.Notices

/-! What comes of the command of an accepted item. It goes one way only: to the handler that was
registered for its server, else to the one for all servers, else to the server, and if that does not run
it either, the user is warned. -/
namespace Autocomplete

/-- What is told of a handler that runs, before anything follows. -/
def Handler.calls (h : Handler) (server : ServerId) (command : Command) : List Observation :=
  (h.scope.map fun scope => .call (.command scope server command)).toList

namespace Session
open Observation

/-- The handler that was registered for a command of one server. -/
def localHandler? (s : Session) (server : ServerId) (command : String) : Option Handler :=
  (s.bindings.find? server).bind fun b => b.localCommands.find? command

/-- Whether a server is attached and runs a command. -/
def runs (s : Session) (server : ServerId) (command : String) : Bool :=
  ((s.bindings.find? server).map (·.supports command)).getD false

/-- What is told when a command is executed after the user was told of some problems. Each way is taken
only if those before it are not open. -/
inductive Routed (s : Session) (notices : List String) (server : ServerId) (command : Command) :
    List Observation → Prop where
  /-- The handler that was registered for the server runs. -/
  | own {h : Handler} (hh : s.localHandler? server command.name = some h) (r : LogRecord)
      (following : List Observation) (hr : ∀ o ∈ following, o.Routine)
      (hf : h.followUp command server = none → following = []) :
      Routed s notices server command (.log r :: (h.calls server command ++ following))
  /-- The handler for all servers runs. -/
  | registry {h : Handler} (hl : s.localHandler? server command.name = none)
      (hh : s.commands.find? command.name = some h) (r : LogRecord)
      (following : List Observation) (hr : ∀ o ∈ following, o.Routine)
      (hf : h.followUp command server = none → following = []) :
      Routed s notices server command (.log r :: (h.calls server command ++ following))
  /-- The server is asked to run it. -/
  | server (hl : s.localHandler? server command.name = none)
      (hg : s.commands.find? command.name = none) (hr : s.runs server command.name = true)
      (r : LogRecord) (n : Nat) :
      Routed s notices server command [.log r, .call (.request n server .executeCommand
        (.ofFields [("command", .str command.name),
          ("arguments", .arr (command.arguments.getD []))]))]
  /-- The user is warned. -/
  | unsupported (hl : s.localHandler? server command.name = none)
      (hg : s.commands.find? command.name = none) (hr : s.runs server command.name = false)
      (hw : s!"Unsupported command {command.name} from {server.display}" ∉ notices)
      (r : LogRecord) :
      Routed s notices server command [.log r, .call (.notify .warning
        s!"Unsupported command {command.name} from {server.display}")]
  /-- The user was warned before. -/
  | repeated (hl : s.localHandler? server command.name = none)
      (hg : s.commands.find? command.name = none) (hr : s.runs server command.name = false)
      (hw : s!"Unsupported command {command.name} from {server.display}" ∈ notices) :
      Routed s notices server command []

theorem startRound_tells (s : Session) (trigger : Trigger) :
    Tells Routine s (s.startRound trigger) :=
  (Tells.giveUpRound s .newRequest).trans (Tells.openRound _ trigger)

theorem triggerSignatureHelp_tells (s : Session) : Tells Routine s s.triggerSignatureHelp := by
  unfold triggerSignatureHelp
  split
  · have hd : Tells Routine s s.dropSignatureTimer := .of_eq rfl
    exact (hd.trans (Tells.cancelSignatureRound _)).trans (Tells.openSignatureRound _ none)
  · exact .of_eq rfl

theorem followUp_tells (s : Session) (f : FollowUp) : Tells Routine s (s.followUp f) := by
  unfold followUp
  extract_lets t
  have ht : Tells Routine s t := Tells.log s ..
  cases f with
  | triggerCompletion =>
    have hd : Tells Routine t t.dropCompletionTimer := .of_eq rfl
    exact (ht.trans hd).trans (startRound_tells _ .manual)
  | triggerSignatureHelp => exact ht.trans (triggerSignatureHelp_tells t)

theorem runHandler_trace (s : Session) (server : ServerId) (command : Command) (h : Handler) :
    ∃ r following, (s.runHandler server command h).trace =
        s.trace ++ .log r :: (h.calls server command ++ following) ∧
      (∀ o ∈ following, o.Routine) ∧ (h.followUp command server = none → following = []) := by
  unfold runHandler
  extract_lets t u
  have hu : ∃ r, u.trace = s.trace ++ .log r :: h.calls server command := by
    cases hscope : h.scope with
    | none => exact ⟨_, by simp [u, Handler.calls, hscope]; rfl⟩
    | some scope => exact ⟨_, by simp [u, Handler.calls, hscope]; exact List.append_assoc ..⟩
  obtain ⟨r, hu⟩ := hu
  clear_value u
  cases h.followUp command server with
  | none => exact ⟨r, [], by simpa using hu, by simp, fun _ => rfl⟩
  | some f =>
    obtain ⟨obs, hf, ho⟩ := followUp_tells u f
    exact ⟨r, obs, by simp [hf, hu], ho, nofun⟩

theorem handler?_eq (s : Session) (server : ServerId) (command : String) :
    s.handler? server command = (s.localHandler? server command).or (s.commands.find? command) :=
  Option.orElse_eq_or

theorem executeCommand_routed {s : Session} (h : Candid s) (server : ServerId)
    (command : Command) :
    ∃ obs, (s.executeCommand server command).trace = s.trace ++ obs ∧
      Routed s s.notices server command obs := by
  unfold executeCommand
  split
  next handler hh =>
    obtain ⟨r, following, ht, hr, hf⟩ := runHandler_trace s server command handler
    rw [handler?_eq, Option.or_eq_some_iff] at hh
    rcases hh with hl | ⟨hl, hg⟩
    · exact ⟨_, ht, .own hl r following hr hf⟩
    · exact ⟨_, ht, .registry hl hg r following hr hf⟩
  next hn =>
    rw [handler?_eq, Option.or_eq_none_iff] at hn
    obtain ⟨hl, hg⟩ := hn
    split
    next hr =>
      dsimp only
      rw [send_frame]
      exact ⟨_, List.append_assoc .., .server hl hg hr _ _⟩
    next hr =>
      have hr : s.runs server command.name = false := Bool.eq_false_iff.mpr hr
      unfold report
      split
      next hw => exact ⟨[], by simp, .repeated hl hg hr ((h.contains_iff _).mp hw)⟩
      next hw =>
        have hn := fun hm => hw ((h.contains_iff _).mpr hm)
        exact ⟨_, List.append_assoc .., .unsupported hl hg hr hn _⟩

/-- Only the servers and the handlers matter. -/
theorem Routed.congr {s t : Session} (hb : t.bindings = s.bindings) (hc : t.commands = s.commands)
    {notices : List String} {server : ServerId} {command : Command} {obs : List Observation}
    (h : Routed t notices server command obs) : Routed s notices server command obs := by
  have hl : t.localHandler? server command.name = s.localHandler? server command.name := by
    rw [localHandler?, hb, localHandler?]
  have hr : t.runs server command.name = s.runs server command.name := by rw [runs, hb, runs]
  cases h with
  | own hh r following ho hf => exact .own (hl ▸ hh) r following ho hf
  | registry hn hh r following ho hf => exact .registry (hl ▸ hn) (hc ▸ hh) r following ho hf
  | server hn hg hs r n => exact .server (hl ▸ hn) (hc ▸ hg) (hr ▸ hs) r n
  | unsupported hn hg hs hw r => exact .unsupported (hl ▸ hn) (hc ▸ hg) (hr ▸ hs) hw r
  | repeated hn hg hs hw => exact .repeated (hl ▸ hn) (hc ▸ hg) (hr ▸ hs) hw

theorem Routed.ordinary {s : Session} {notices : List String} {server : ServerId}
    {command : Command} {obs : List Observation} (h : Routed s notices server command obs)
    (o : Observation) (ho : o ∈ obs) : o.Ordinary := by
  have ran {hd : Handler} {r : LogRecord} {following : List Observation}
      (hr : ∀ o ∈ following, o.Routine)
      (ho : o ∈ .log r :: (hd.calls server command ++ following)) : o.Ordinary := by
    rcases List.mem_cons.mp ho with rfl | ho
    · exact (Routine.log r).ordinary
    · rcases List.mem_append.mp ho with ho | ho
      · obtain ⟨scope, _, rfl⟩ := Option.map_eq_some_iff.mp (Option.mem_toList.mp ho)
        exact .command scope server command
      · exact (hr o ho).ordinary
  have two {r : LogRecord} {p : Observation} (hp : p.Ordinary) (ho : o ∈ [.log r, p]) :
      o.Ordinary := by
    simp only [List.mem_cons, List.not_mem_nil, or_false] at ho
    rcases ho with rfl | rfl
    · exact (Routine.log r).ordinary
    · exact hp
  cases h with
  | own _ r following hr => exact ran hr ho
  | registry _ _ r following hr => exact ran hr ho
  | server => exact two (.request _ _ _ _) ho
  | unsupported => exact two (.preliminary (.warning _)) ho
  | repeated => cases ho

end Session
end Autocomplete
