import Autocomplete.Proofs.Session.Telling

/-! Problems that the user is told of. What a session tries to report while it does something is a list
of problems. It keeps the texts of those that it has reported, and they are what the user was told, each
of them once. -/
namespace Autocomplete

/-- How grave a problem is, and what the user is told of it. -/
abbrev Problem := Severity × String

/-- What the user is told of an error of a server about completion. -/
def completionFailure (server : ServerId) (text : String) : String :=
  s!"Completion failed on {server.display}: {text}"

/-- What the user is told of an error of a server about signature help. -/
def helpFailure (server : ServerId) (text : String) : String :=
  s!"Signature help failed on {server.display}: {text}"

/-- The problem that an error is; the error of a request that was cancelled is none. -/
def failure? (tell : ServerId → String → String) : ServerId × ResponseError → Option Problem
  | (server, e) => if e.isCancelled then none else some (.error, tell server e.message)

/-- The problems among some answers. -/
def failures (tell : ServerId → String → String) (answers : List (ServerId × Reply)) :
    List Problem :=
  answers.filterMap fun (server, reply) =>
    match reply with
    | .ok _ => none
    | .error e => failure? tell (server, e)

theorem failures_eq (tell : ServerId → String → String) (replies : ServerMap Reply) :
    failures tell replies.entries = (MergeRequest.errors replies).filterMap (failure? tell) := by
  rw [failures, MergeRequest.errors, List.filterMap_filterMap]
  refine List.filterMap_congr fun answer _ => ?_
  obtain ⟨server, reply⟩ := answer
  cases reply <;> rfl

def Observation.notice? : Observation → Option String
  | .call (.notify _ message) => some message
  | _ => none

theorem Observation.Routine.notice?_eq_none {o : Observation} (h : o.Routine) :
    o.notice? = none := by
  cases h <;> rfl

namespace Session
open Observation Relation

/-- What the user was told of problems. -/
def notices (s : Session) : List String := s.trace.filterMap notice?

/-- The user is told of no problem between two states. -/
abbrev Untroubled : Session → Session → Prop := Tells (·.notice? = none)

theorem Tells.untroubled {s t : Session} (h : Tells Routine s t) : Untroubled s t :=
  h.mono fun _ => Routine.notice?_eq_none

theorem Untroubled.notices_eq {s t : Session} (h : Untroubled s t) : t.notices = s.notices := by
  obtain ⟨obs, ht, ho⟩ := h
  rw [notices, ht, List.filterMap_append, List.filterMap_eq_nil_iff.mpr ho, List.append_nil, notices]

/-- From one state to the next, the session tries to report some problems, one after the other, and the
user is told of no others. -/
inductive Reports : Session → List Problem → Session → Prop where
  | aside {s t : Session} (h : Untroubled s t) (hr : t.reported = s.reported) : Reports s [] t
  | report (s : Session) (severity : Severity) (message : String) :
      Reports s [(severity, message)] (s.report severity message)
  | trans {s t u : Session} {first second : List Problem} (h : Reports s first t)
      (g : Reports t second u) : Reports s (first ++ second) u

/-- What is kept of reported problems is what the user was told, without repetitions. -/
structure Candid (s : Session) : Prop where
  distinct : s.reported.Nodup
  told : s.notices = s.reported.reverse

theorem candid_setup (setup : Setup) : Candid setup.session := ⟨.nil, rfl⟩

namespace Candid

variable {s t : Session}

/-- A problem is passed over exactly if the user was told of it before. -/
theorem contains_iff (h : Candid s) (message : String) :
    s.reported.contains message = true ↔ message ∈ s.notices := by
  rw [h.told, List.contains_iff_mem, List.mem_reverse]

theorem keep (h : Candid s) (ht : Untroubled s t) (hr : t.reported = s.reported) : Candid t where
  distinct := hr ▸ h.distinct
  told := by rw [ht.notices_eq, hr, h.told]

theorem report (h : Candid s) (severity : Severity) (message : String) :
    Candid (s.report severity message) := by
  unfold Session.report
  split
  · exact h
  next hm =>
    have hm : message ∉ s.reported := fun hc => hm (List.contains_iff_mem.mpr hc)
    refine ⟨List.nodup_cons.mpr ⟨hm, h.distinct⟩, ?_⟩
    change List.filterMap notice? (s.trace ++ [.log _] ++ [.call (.notify severity message)]) =
      (message :: s.reported).reverse
    rw [List.reverse_cons, ← h.told, List.filterMap_append, List.filterMap_append]
    exact congrArg (· ++ [message]) (List.append_nil _)

end Candid

theorem Reports.candid {s t : Session} {problems : List Problem} (h : Reports s problems t)
    (hs : Candid s) : Candid t := by
  induction h with
  | aside h hr => exact hs.keep h hr
  | report s severity message => exact hs.report severity message
  | trans _ _ ih ih' => exact ih' (ih hs)

namespace Reports

variable {s t u : Session} {problems : List Problem}

theorem routine (h : Tells Routine s t) (hr : t.reported = s.reported) : Reports s [] t :=
  .aside h.untroubled hr

theorem before (h : Reports s [] t) (g : Reports t problems u) : Reports s problems u := h.trans g

theorem followed (h : Reports s problems t) (g : Reports t [] u) : Reports s problems u :=
  problems.append_nil ▸ h.trans g

theorem reportFailure (id : RequestId) (s : Session) (error : ServerId × ResponseError) :
    Reports s (failure? completionFailure error).toList (reportFailure id s error) := by
  obtain ⟨server, e⟩ := error
  unfold Session.reportFailure failure?
  dsimp only
  split
  · exact .aside (.one rfl rfl) rfl
  · exact (Reports.report ..).followed (.aside (.one rfl rfl) rfl)

theorem reportFailures (id : RequestId) (errors : List (ServerId × ResponseError)) (s : Session) :
    Reports s (errors.filterMap (failure? completionFailure))
      (errors.foldl (Session.reportFailure id) s) := by
  induction errors generalizing s with
  | nil => exact .aside (.of_eq rfl) rfl
  | cons error rest ih =>
    have hsplit : (error :: rest).filterMap (failure? completionFailure) =
        (failure? completionFailure error).toList ++
          rest.filterMap (failure? completionFailure) := by
      rw [List.filterMap_cons]
      cases failure? completionFailure error <;> rfl
    rw [hsplit]
    exact (reportFailure id s error).trans (ih _)

end Reports

/-- The problems that the end of a round brings, if the user is still where it began. -/
def roundProblems (s : Session) (c : Round) : List Problem :=
  if s.buffer.inserting && s.buffer.cursor.line == c.cursor.line then
    failures completionFailure c.replies.entries
  else []

/-- The problems that the end of a round of signature help brings. -/
def helpProblems (s : Session) (g : SignatureRound) : List Problem :=
  if s.buffer.inserting then failures helpFailure g.replies.entries else []

/-- The problem with a snippet that nobody expands. -/
def literalProblems (s : Session) : List Problem :=
  if s.buffer.inserting && s.availableEngine?.isNone then
    [(.warning, "No snippet engine available, inserting literal text")]
  else []

namespace Reports

theorem finishRound (s : Session) (c : Round) :
    Reports s (s.roundProblems c) (s.finishRound c) := by
  unfold Session.finishRound roundProblems
  extract_lets t about merged roundTrip u v w x
  have ht : Reports s [] t := .aside (.of_eq rfl) rfl
  by_cases hi : s.buffer.inserting = true
  case neg =>
    have hi : s.buffer.inserting = false := Bool.eq_false_iff.mpr hi
    rw [if_pos (show (!t.buffer.inserting) = true by simpa [t] using hi), hi, Bool.false_and,
      if_neg Bool.false_ne_true]
    exact ht.followed (.routine (Tells.log t ..) rfl)
  rw [if_neg (show ¬ (!t.buffer.inserting) = true by simpa [t] using hi)]
  by_cases hl : s.buffer.cursor.line = c.cursor.line
  case neg =>
    rw [if_pos (show t.buffer.cursor.line ≠ c.cursor.line from hl), if_neg (by simp [hl])]
    exact ht.followed (.routine (Tells.log t ..) rfl)
  rw [if_neg (not_not_intro hl), if_pos (by simp [hi, hl]), failures_eq]
  have hv : Reports s [] v := ht.followed (.routine (Tells.logAll t _ .log) rfl)
  have hw : Reports v _ w := .reportFailures c.id merged.errors v
  have hx : Reports s _ x := (hv.before hw).followed (.aside (.of_eq rfl) rfl)
  split
  · exact hx.followed (.routine (Tells.log x ..) rfl)
  · unfold present
    extract_lets count y z y' z'
    have hz : Reports x [] z := .routine (Tells.log y ..) rfl
    have hy : Reports z [] y' := .aside (.one rfl rfl) rfl
    exact hx.followed (hz.followed (hy.followed (.aside (.one rfl rfl) rfl)))

theorem viewSignature (s : Session) (shown : Bool) (answer : ServerId × Reply) :
    Reports s (failures helpFailure [answer]) (viewSignature (s, shown) answer).1 := by
  obtain ⟨server, reply⟩ := answer
  cases reply with
  | error e =>
    unfold failures failure? Session.viewSignature
    by_cases hc : e.isCancelled = true
    · simp only [List.filterMap_cons, hc, if_true, List.filterMap_nil]
      exact .aside (.of_eq rfl) rfl
    · simp only [List.filterMap_cons, hc, Bool.false_eq_true, if_false, List.filterMap_nil]
      exact .report ..
  | ok value =>
    change Reports s [] _
    rcases viewSignature_cases s shown server (.ok value) with h | ⟨_, he, _⟩ | ⟨_, _, _, _, _, h⟩ | h
    · rw [h]
      exact .aside (.of_eq rfl) rfl
    · cases he
    · rw [h]
      exact .aside (.trans (.one rfl rfl) (.one rfl rfl)) rfl
    · rw [h]
      exact .aside (.one rfl rfl) rfl

theorem viewSignatures (answers : List (ServerId × Reply)) (s : Session) (shown : Bool) :
    Reports s (failures helpFailure answers)
      (answers.foldl Session.viewSignature (s, shown)).1 := by
  induction answers generalizing s shown with
  | nil => exact .aside (.of_eq rfl) rfl
  | cons answer rest ih =>
    rw [show failures helpFailure (answer :: rest) =
      failures helpFailure [answer] ++ failures helpFailure rest from
        List.filterMap_append (l := [answer])]
    exact (viewSignature s shown answer).trans (ih _ _)

theorem finishSignatureRound (s : Session) (g : SignatureRound) :
    Reports s (s.helpProblems g) (s.finishSignatureRound g) := by
  have ht : Reports s [] { s with signatureRound := none } := .aside (.of_eq rfl) rfl
  unfold Session.finishSignatureRound helpProblems
  dsimp only
  split
  · exact ht.before (viewSignatures ..)
  · exact ht

theorem expand (s : Session) (e : Expansion) : Reports s s.literalProblems (s.expand e).1 := by
  unfold Session.expand literalProblems
  by_cases hi : s.buffer.inserting = true
  case neg =>
    rw [if_neg hi, if_neg (by simp [hi])]
    exact .aside (.one rfl rfl) rfl
  rw [if_pos hi]
  cases he : s.availableEngine? with
  | some engine =>
    rw [if_neg (by simp)]
    exact .aside (.trans (.one rfl rfl) (.one rfl rfl)) rfl
  | none =>
    rw [if_pos (by simp [hi])]
    exact (Reports.report ..).followed (.aside (.one rfl rfl) rfl)

end Reports

namespace Candid

variable {s t : Session}

theorem finishRound (h : Candid s) (round : Round) : Candid (s.finishRound round) :=
  (Reports.finishRound s round).candid h

theorem finishSignatureRound (h : Candid s) (round : SignatureRound) :
    Candid (s.finishSignatureRound round) := (Reports.finishSignatureRound s round).candid h

theorem takeCompletion (h : Candid s) (id : RequestId) (server : ServerId) (reply : Reply) :
    Candid (s.takeCompletion id server reply) := by
  unfold Session.takeCompletion
  split
  next round _ =>
    split
    · have hf := s.recordReply_frame round server reply
      have hr := (Adds.recordReply s round server reply).routine (by simp) (by simp)
      have hc : Candid (s.recordReply round server reply) := h.keep hr.untroubled (by rw [hf])
      unfold closeRound
      split
      · split
        · exact hc.finishRound _
        · exact hc
      · exact hc
    · exact h
  · exact h

theorem detachFromRound (h : Candid s) (server : ServerId) : Candid (s.detachFromRound server) := by
  unfold Session.detachFromRound
  split
  · exact h
  next round _ =>
    dsimp only
    have hd := (Adds.dropServer s round server).routine (by simp) (by simp)
    have ht : Candid (s.dropServer round server) :=
      h.keep hd.untroubled (by rw [dropServer_frame])
    split
    · exact ht
    · split
      · exact ht
      · split
        · exact ht.keep (.one rfl rfl) rfl
        · exact ht.finishRound _

theorem takeSignature (h : Candid s) (server : ServerId) (reply : Reply) :
    Candid (s.takeSignature server reply) := by
  rcases s.takeSignature_cases server reply with he | ⟨g, _, he⟩
  · rwa [he]
  · rw [he]
    split
    · exact h.finishSignatureRound _
    · exact h.keep (.of_eq rfl) rfl

theorem detachFromSignature (h : Candid s) (server : ServerId) :
    Candid (s.detachFromSignature server) := by
  rcases s.detachFromSignature_cases server with ⟨he, _⟩ | ⟨g, n, _, _, he⟩
  · rwa [he]
  · rw [he]
    extract_lets u
    have hc := Adds.cancel { s with signatureRound := some (g.without server) } n
    have hr : u.reported = s.reported := by
      change (Session.cancel _ n).reported = s.reported
      rw [cancel_frame]
    have hu : Candid u := h.keep (hc.routine (by simp) (by simp)).untroubled hr
    split
    · exact hu.finishSignatureRound _
    · exact hu

theorem detach (h : Candid s) (server : ServerId) : Candid (s.detach server) := by
  unfold Session.detach
  split
  · extract_lets t
    have ht : Candid t := h.keep (.one rfl rfl) rfl
    exact (ht.detachFromSignature server).detachFromRound server
  · exact h

end Candid

theorem Change.candid {s t : Session} (hc : Change s t) (h : Candid s) : Candid t := by
  cases hc with
  | logAll records => exact h.keep (Tells.logAll s records fun _ => rfl) rfl
  | report message => exact h.report .warning message
  | tell c hc =>
    cases c with
    | confirm => exact h.keep (.one rfl rfl) rfl
    | command => exact h.keep (.one rfl rfl) rfl
    | _ => exact absurd hc nofun
  | edit => exact h.keep (.one rfl rfl) rfl
  | armCompletion => exact h.keep (.one rfl rfl) rfl
  | armSignatureHelp => exact h.keep (.one rfl rfl) rfl
  | registerCommand server command reaction =>
    have ha := (Adds.registerCommand s server command reaction).routine (by simp) (by simp)
    exact h.keep ha.untroubled (by rw [registerCommand_frame])
  | giveUpRound reason =>
    exact h.keep (Tells.giveUpRound s reason).untroubled (by rw [giveUpRound_frame])
  | openRound trigger =>
    exact h.keep (Tells.openRound s trigger).untroubled (by rw [openRound_frame])
  | cancelSignatureRound =>
    exact h.keep (Tells.cancelSignatureRound s).untroubled (by rw [cancelSignatureRound_frame])
  | openSignatureRound trigger =>
    exact h.keep (Tells.openSignatureRound s trigger).untroubled
      (by rw [openSignatureRound_frame])
  | takeSignature place number server reply =>
    have hd : Candid { s with queue := s.queue.eraseIdx place } := h.keep (.of_eq rfl) rfl
    exact hd.takeSignature server reply
  | sendCommand => exact h.keep (.one (by rw [send_frame]) rfl) (by rw [send_frame])
  | answer => exact h.keep (.of_eq (by rw [answer_frame])) (by rw [answer_frame])
  | _ => exact h.keep (.of_eq rfl) rfl

theorem TextChange.candid {s t : Session} (hc : TextChange s t) (h : Candid s) : Candid t := by
  cases hc with
  | supersedeResolve =>
    exact h.keep (Tells.supersedeResolve s).untroubled (by rw [supersedeResolve_frame])
  | sendResolve payload expansion =>
    refine h.keep (Tells.sendResolve s payload expansion).untroubled ?_
    unfold Session.sendResolve
    dsimp only
    rw [send_frame]
    rfl
  | takeUp => exact h.keep (.of_eq rfl) rfl
  | expand e => exact (Reports.expand s e).candid h
  | _ => exact h.keep (.one rfl rfl) rfl

theorem RoundChange.candid {s t : Session} (hc : RoundChange s t) (h : Candid s) : Candid t := by
  cases hc with
  | attach server capabilities options =>
    exact h.keep (attach_tells s server capabilities options).untroubled (by rw [attach_frame])
  | detach server => exact h.detach server
  | takeCompletion place number server id reply =>
    have hd : Candid { s with queue := s.queue.eraseIdx place } := h.keep (.of_eq rfl) rfl
    exact hd.takeCompletion id server reply

theorem Evolves.candid {s t : Session} (h : Evolves s t) (hs : Candid s) : Candid t := by
  induction h with
  | refl => exact hs
  | tail _ hc ih => exact hc.elim (fun hc => hc.candid ih) (fun hc => hc.candid ih)

theorem after_candid (setup : Setup) (actions : List Action) :
    Candid (setup.session.after actions) :=
  after_induction (fun _ _ hc h => hc.candid h) (fun _ _ hc h => hc.candid h)
    (fun _ _ hc h => hc.candid h) (candid_setup setup) actions

end Session
end Autocomplete
