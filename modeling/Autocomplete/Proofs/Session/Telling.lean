import Autocomplete.Proofs.Session.Trace

/-! What changes tell. Asking for results and giving them up is told by routine observations only, and
whatever else is told is ordinary, except that an item is accepted and what comes of signature help. -/
namespace Autocomplete

namespace Observation

/-- Nothing of edits, problems, commands, accepted items and signature help. -/
inductive Routine : Observation → Prop where
  | log (r : LogRecord) : Routine (.log r)
  | note (n : Note) : Routine (.note n)
  | request (n : Nat) (server : ServerId) (method : Method) (params : Json)
      (h : method ≠ .executeCommand) : Routine (.call (.request n server method params))
  | cancel (n : Nat) : Routine (.call (.cancel n))
  | present (column : Nat) (entries : List Match) : Routine (.call (.present column entries))
  | event {e : Event} {id : RequestId} (h : e.requestId? = some id) : Routine (.event e)

/-- What may come before the acceptance of an item ends: nothing of commands, accepted items and
signature help, and edits of the server only on a condition. -/
inductive Preliminary (editable : Prop) : Observation → Prop where
  | routine {o : Observation} (h : Routine o) : Preliminary editable o
  | warning (message : String) : Preliminary editable (.call (.notify .warning message))
  | expand (engine template : String) : Preliminary editable (.call (.expand engine template))
  | edit (cause : EditCause) (start stop : Cursor) (text : List Char)
      (h : cause = .server → editable) : Preliminary editable (.edit cause start stop text)

/-- Nothing of accepted items and signature help. -/
inductive Ordinary : Observation → Prop where
  | preliminary {o : Observation} (h : Preliminary True o) : Ordinary o
  | failure (server : ServerId) (text : String) :
      Ordinary (.call (.notify .error s!"Completion failed on {server.display}: {text}"))
  | confirm : Ordinary (.call .confirm)
  | command (scope : Scope) (server : ServerId) (command : Command) :
      Ordinary (.call (.command scope server command))
  | request (n : Nat) (server : ServerId) (method : Method) (params : Json) :
      Ordinary (.call (.request n server method params))

theorem Preliminary.mono {a b : Prop} {o : Observation} (h : Preliminary a o) (hab : a → b) :
    Preliminary b o := by
  cases h with
  | routine h => exact .routine h
  | warning => exact .warning _
  | expand => exact .expand _ _
  | edit cause start stop text h => exact .edit cause start stop text fun hc => hab (h hc)

theorem Preliminary.ordinary {editable : Prop} {o : Observation} (h : Preliminary editable o) :
    Ordinary o := .preliminary (h.mono fun _ => trivial)

theorem Routine.ordinary {o : Observation} (h : Routine o) : Ordinary o := .preliminary (.routine h)

/-- Routine, or a server that was asked for completions has failed. -/
inductive Reporting : Observation → Prop where
  | routine {o : Observation} (h : Routine o) : Reporting o
  | failure (server : ServerId) (text : String) :
      Reporting (.call (.notify .error s!"Completion failed on {server.display}: {text}"))

/-- What is told when answers about signature help are taken, or are waited for no longer. -/
inductive Helping : Observation → Prop where
  | log (r : LogRecord) : Helping (.log r)
  | cancel (n : Nat) : Helping (.call (.cancel n))
  | failure (server : ServerId) (text : String) :
      Helping (.call (.notify .error s!"Signature help failed on {server.display}: {text}"))
  | signature (server : ServerId) (help : SignatureHelp) :
      Helping (.call (.signature server help))
  | shown (server : ServerId) (count : Nat) : Helping (.event (.signatureHelpShown server count))

theorem Reporting.ordinary {o : Observation} (h : Reporting o) : Ordinary o := by
  cases h with
  | routine h => exact h.ordinary
  | failure server text => exact .failure server text

theorem routine_of_kind {o : Observation} (hp : o.kind ≠ .plain) (ht : o.kind ≠ .text) :
    o.Routine := by
  cases o with
  | call c =>
    cases c with
    | request n server method params =>
      cases method with
      | completion => exact .request n server .completion params nofun
      | _ => exact absurd rfl hp
    | cancel n => exact .cancel n
    | present column entries => exact .present column entries
    | expand => exact absurd rfl ht
    | _ => exact absurd rfl hp
  | edit cause =>
    cases cause with
    | makeRoom => exact absurd rfl ht
    | putBack => exact absurd rfl ht
    | _ => exact absurd rfl hp
  | event e =>
    cases e with
    | requested id => exact .event rfl
    | cancelled id => exact .event rfl
    | _ => exact absurd rfl hp
  | log r => exact .log r
  | note n => exact .note n

end Observation

namespace Session
open Observation Relation

/-- From one state to the next, the trace grows by such observations only. -/
def Tells (P : Observation → Prop) (s t : Session) : Prop :=
  ∃ obs, t.trace = s.trace ++ obs ∧ ∀ o ∈ obs, P o

namespace Tells

variable {P Q : Observation → Prop} {s t u : Session}

theorem of_eq (h : t.trace = s.trace) : Tells P s t := ⟨[], by simp [h], by simp⟩

theorem one {o : Observation} (h : t.trace = s.trace ++ [o]) (ho : P o) : Tells P s t :=
  ⟨[o], h, by simpa using ho⟩

theorem trans (h : Tells P s t) (g : Tells P t u) : Tells P s u := by
  obtain ⟨a, ha, hp⟩ := h
  obtain ⟨b, hb, hq⟩ := g
  refine ⟨a ++ b, by rw [hb, ha, List.append_assoc], fun o ho => ?_⟩
  exact (List.mem_append.mp ho).elim (hp o) (hq o)

theorem mono (h : Tells P s t) (hp : ∀ o, P o → Q o) : Tells Q s t := by
  obtain ⟨obs, ht, ho⟩ := h
  exact ⟨obs, ht, fun o hm => hp o (ho o hm)⟩

theorem preliminary {editable : Prop} (h : Tells Routine s t) : Tells (Preliminary editable) s t :=
  h.mono fun _ => .routine

theorem ordinary (h : Tells Routine s t) : Tells Ordinary s t := h.mono fun _ => Routine.ordinary

theorem reporting (h : Tells Routine s t) : Tells Reporting s t := h.mono fun _ => .routine

end Tells

theorem Adds.routine {kinds : List Kind} {s t : Session} (h : Adds kinds s t)
    (hp : Kind.plain ∉ kinds) (ht : Kind.text ∉ kinds) : Tells Routine s t := by
  obtain ⟨obs, hobs, ho⟩ := h
  refine ⟨obs, hobs, fun o hm => routine_of_kind (fun he => hp ?_) fun he => ht ?_⟩
  · exact he ▸ ho o hm
  · exact he ▸ ho o hm

namespace Tells

variable {P : Observation → Prop}

theorem logAll (s : Session) (records : List LogRecord) (hp : ∀ r, P (.log r)) :
    Tells P s (s.logAll records) := by
  refine ⟨records.map .log, rfl, fun o ho => ?_⟩
  obtain ⟨r, _, rfl⟩ := List.mem_map.mp ho
  exact hp r

theorem log (s : Session) (level : Level) (area message : String) (fields : List (String × Json)) :
    Tells Routine s (s.log level area message fields) := one rfl (.log _)

theorem report (s : Session) (severity : Severity) (message : String) (hl : ∀ r, P (.log r))
    (hp : P (.call (.notify severity message))) : Tells P s (s.report severity message) := by
  unfold Session.report
  split
  · exact of_eq rfl
  · exact (one rfl (hl _)).trans (one rfl hp)

theorem warn {editable : Prop} (s : Session) (message : String) :
    Tells (Preliminary editable) s (s.report .warning message) :=
  report s .warning message (fun r => .routine (.log r)) (.warning message)

theorem askAll (purpose : Purpose) (params : Session → Binding → Json) (bs : List Binding)
    (s : Session) (hp : purpose.method ≠ .executeCommand) :
    Tells Routine s (Session.askAll purpose params s bs).1 := by
  induction bs generalizing s with
  | nil => exact of_eq rfl
  | cons b bs ih =>
    have hs : Tells Routine s (s.send b.server purpose (params s b)).1 :=
      one (by rw [send_frame]) (.request _ _ _ _ hp)
    exact hs.trans (ih _)

theorem openRound (s : Session) (trigger : Trigger) : Tells Routine s (s.openRound trigger) := by
  unfold Session.openRound
  extract_lets cursor id t
  have ha : Tells Routine s _ := askAll (.completion id) (fun s b => s.completionParams trigger b)
    (t.bindings.values.filter (·.completes)) t nofun
  split
  next u asked hu =>
    rw [hu] at ha
    split
    · exact ha.trans (log ..)
    · extract_lets tracked v w pending round
      have hw : Tells Routine u w := log v ..
      exact (ha.trans hw).trans (one rfl (.event rfl))

theorem giveUpRound (s : Session) (reason : CancelReason) :
    Tells Routine s (s.giveUpRound reason) :=
  (Adds.giveUpRound s reason).routine (by simp) (by simp)

theorem reportFailures (id : RequestId) (failures : List (ServerId × ResponseError))
    (s : Session) : Tells Reporting s (failures.foldl (reportFailure id) s) := by
  have event (e : ServerId × ResponseError) : Reporting (.event (.requestFailed id e.1 e.2)) :=
    .routine (.event rfl)
  induction failures generalizing s with
  | nil => exact of_eq rfl
  | cons f rest ih =>
    refine trans ?_ (ih _)
    unfold reportFailure
    dsimp only
    split
    · exact one rfl (event f)
    · have hr : Tells Reporting s (s.report .error _) :=
        report _ _ _ (fun r => .routine (.log r)) (.failure f.1 f.2.message)
      exact hr.trans (one rfl (event f))

theorem finishRound (s : Session) (round : Round) : Tells Reporting s (s.finishRound round) := by
  unfold Session.finishRound
  extract_lets t about merged roundTrip u v w x
  have ht : Tells Routine s t := of_eq rfl
  split
  · exact (ht.trans (log t ..)).reporting
  · split
    · exact (ht.trans (log t ..)).reporting
    · have hu : Tells Routine s v := ht.trans (logAll t _ .log)
      have hx : Tells Reporting s x :=
        hu.reporting.trans (reportFailures round.id merged.errors v)
      split
      · exact hx.trans (log x ..).reporting
      · unfold present
        extract_lets count y z y' z'
        have hz : Tells Routine x z := log y ..
        have hy' : Tells Routine z y' := one rfl (.present _ _)
        refine hx.trans (reporting ?_)
        exact (hz.trans hy').trans (one rfl (.event rfl))

theorem takeCompletion (s : Session) (id : RequestId) (server : ServerId) (reply : Reply) :
    Tells Reporting s (s.takeCompletion id server reply) := by
  unfold Session.takeCompletion
  split
  next round _ =>
    split
    · have hr : Tells Routine s (s.recordReply round server reply) :=
        (Adds.recordReply s round server reply).routine (by simp) (by simp)
      refine hr.reporting.trans ?_
      unfold closeRound
      split
      · split
        · exact finishRound _ _
        · exact of_eq rfl
      · exact of_eq rfl
    · exact of_eq rfl
  · exact of_eq rfl

theorem detachFromRound (s : Session) (server : ServerId) :
    Tells Reporting s (s.detachFromRound server) := by
  unfold Session.detachFromRound
  split
  · exact of_eq rfl
  next round _ =>
    dsimp only
    have ht : Tells Reporting s (s.dropServer round server) :=
      ((Adds.dropServer s round server).routine (by simp) (by simp)).reporting
    split
    · exact ht
    · split
      · exact ht
      · split
        · exact ht.trans (one rfl (.routine (.event rfl)))
        · exact ht.trans (finishRound _ _)

theorem viewSignature (s : Session) (shown : Bool) (answer : ServerId × Reply) :
    Tells Helping s (Session.viewSignature (s, shown) answer).1 := by
  rcases viewSignature_cases s shown answer.1 answer.2 with h | ⟨e, _, _, h⟩ | ⟨_, _, _, _, _, h⟩ | h
  · exact of_eq (by rw [h])
  · rw [h]
    exact report s .error _ .log (.failure _ _)
  · rw [h]
    exact trans (one rfl (.signature _ _)) (one rfl (.shown _ _))
  · rw [h]
    exact one rfl (.log _)

theorem finishSignatureRound (s : Session) (round : SignatureRound) :
    Tells Helping s (s.finishSignatureRound round) := by
  unfold Session.finishSignatureRound
  dsimp only
  split
  · exact viewSignatures_induction (P := Tells Helping s)
      (fun t shown answer ht => ht.trans (viewSignature t shown answer)) _ _ _ (of_eq rfl)
  · exact of_eq rfl

theorem takeSignature (s : Session) (server : ServerId) (reply : Reply) :
    Tells Helping s (s.takeSignature server reply) := by
  rcases s.takeSignature_cases server reply with h | ⟨g, _, h⟩
  · exact of_eq (by rw [h])
  · rw [h]
    split
    · exact finishSignatureRound ..
    · exact of_eq rfl

theorem detachFromSignature (s : Session) (server : ServerId) :
    Tells Helping s (s.detachFromSignature server) := by
  rcases s.detachFromSignature_cases server with ⟨h, _⟩ | ⟨g, n, _, _, h⟩
  · exact of_eq (by rw [h])
  · rw [h]
    extract_lets u
    have hu : Tells Helping s u := by
      refine ⟨_, cancel_trace { s with signatureRound := some (g.without server) } n, fun o ho => ?_⟩
      split at ho
      · obtain rfl := List.mem_singleton.mp ho
        exact .cancel n
      · cases ho
    split
    · exact hu.trans (finishSignatureRound ..)
    · exact hu

theorem cancelSignatureRound (s : Session) : Tells Routine s s.cancelSignatureRound :=
  (Adds.cancelSignatureRound s).routine (by simp) (by simp)

theorem openSignatureRound (s : Session) (trigger : Option Char) :
    Tells Routine s (s.openSignatureRound trigger) := by
  have ha := askAll .signatureHelp (fun s b => s.signatureParams trigger b)
    (s.bindings.values.filter (wantsSignature trigger)) s nofun
  unfold Session.openSignatureRound
  dsimp only
  split
  · exact ha
  · exact ha.trans (one rfl (.log _))

theorem reset (s : Session) (reason : CancelReason) : Tells Routine s (s.reset reason) := by
  have hd : Tells Routine s s.dropCompletionTimer.dropSignatureTimer := of_eq rfl
  exact (hd.trans (cancelSignatureRound _)).trans (giveUpRound _ reason)

theorem supersedeResolve (s : Session) : Tells Routine s s.supersedeResolve := by
  unfold Session.supersedeResolve
  split
  next pending _ =>
    have hl : Tells Routine s
        { s.log .debug "accept" "Superseding pending resolve" with resolve := none } :=
      one rfl (.log _)
    exact hl.trans ((Adds.cancel _ pending.number).routine (by simp) (by simp))
  · exact of_eq rfl

theorem sendResolve (s : Session) (payload : Payload) (expansion : Option Expansion) :
    Tells Routine s (s.sendResolve payload expansion) := by
  have hs : Tells Routine s (s.send payload.server .resolve payload.item.encode).1 :=
    one (by rw [send_frame]) (.request _ _ Purpose.resolve.method _ nofun)
  exact hs.trans (one rfl (.log _))

theorem expand {editable : Prop} (s : Session) (e : Expansion) :
    Tells (Preliminary editable) s (s.expand e).1 := by
  unfold Session.expand
  split
  · split
    next engine _ =>
      have hc : Tells (Preliminary editable) s (s.call (.expand engine.name e.snippet)) :=
        one rfl (.expand _ _)
      exact hc.trans (log _ .debug "accept" "Expanded snippet" _).preliminary
    next => exact (warn s _).trans (one rfl (.edit _ _ _ _ nofun))
  · exact one rfl (.edit _ _ _ _ nofun)

end Tells

theorem attach_tells (s : Session) (server : ServerId) (capabilities : Capabilities)
    (options : AttachOptions) : Tells Routine s (s.attach server capabilities options) := by
  unfold attach
  dsimp only
  split
  · exact Tells.trans (.one rfl (.log _)) (.one rfl (.log _))
  · exact .one rfl (.log _)

/-- Whatever a change tells is ordinary, unless an answer about signature help is taken. -/
theorem Change.tells {s t : Session} (h : Change s t) : Tells Ordinary s t ∨
    ∃ (place number : Nat) (server : ServerId) (reply : Reply),
      s.queue[place]? = some (.reply number server .signatureHelp reply) ∧
      s.isLive (.reply number server .signatureHelp reply) = true ∧
      t = { s with queue := s.queue.eraseIdx place }.takeSignature server reply := by
  cases h with
  | takeSignature place number server reply hm live =>
    exact .inr ⟨place, number, server, reply, hm, live, rfl⟩
  | logAll records => exact .inl (Tells.logAll s records fun r => (Routine.log r).ordinary)
  | report message =>
    have hw : Tells (Preliminary True) s (s.report .warning message) := Tells.warn s message
    exact .inl (hw.mono fun _ => Preliminary.ordinary)
  | tell c hc =>
    left
    cases c with
    | confirm => exact .one rfl .confirm
    | command scope server command => exact .one rfl (.command scope server command)
    | _ => exact absurd hc nofun
  | edit => exact .inl (.one rfl (.preliminary (.edit _ _ _ _ fun _ => trivial)))
  | armCompletion => exact .inl (.one rfl (Routine.log _).ordinary)
  | armSignatureHelp => exact .inl (.one rfl (Routine.log _).ordinary)
  | registerCommand =>
    exact .inl ((Adds.registerCommand ..).routine (by simp) (by simp)).ordinary
  | giveUpRound reason => exact .inl (Tells.giveUpRound s reason).ordinary
  | openRound trigger => exact .inl (Tells.openRound s trigger).ordinary
  | cancelSignatureRound => exact .inl (Tells.cancelSignatureRound s).ordinary
  | openSignatureRound trigger => exact .inl (Tells.openSignatureRound s trigger).ordinary
  | sendCommand => exact .inl (.one (by rw [send_frame]) (.request _ _ _ _))
  | answer => exact .inl (.of_eq (by rw [answer_frame]))
  | _ => exact .inl (.of_eq rfl)

/-- Whatever happens to an accepted item is ordinary, except that the acceptance ends. -/
theorem TextChange.tells {s t : Session} (h : TextChange s t) : Tells Ordinary s t ∨
    ∃ (payload : Payload) (expanded : Bool),
      t = s.emit (.itemAccepted payload.server payload.item.label expanded) := by
  cases h with
  | conclude payload expanded => exact .inr ⟨payload, expanded, rfl⟩
  | supersedeResolve => exact .inl (Tells.supersedeResolve s).ordinary
  | removeInsertedWord => exact .inl (.one rfl (.preliminary (.edit _ _ _ _ nofun)))
  | sendResolve payload expansion => exact .inl (Tells.sendResolve s payload expansion).ordinary
  | takeUp => exact .inl (.of_eq rfl)
  | expand e =>
    have he : Tells (Preliminary True) s (s.expand e).1 := Tells.expand s e
    exact .inl (he.mono fun _ => Preliminary.ordinary)

end Session
end Autocomplete
