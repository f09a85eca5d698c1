import Autocomplete.Proofs.Session.Outstanding

/-! Detaching a server. Its requests about completion and signature help are cancelled, and no answer of
it matters until it is attached again, but for one: an accepted item that waits to be resolved is left
alone. -/
namespace Autocomplete

/-- Signature help is asked for at once. -/
def Action.askForHelp : Action := .perform ⟨.triggerSignatureHelp, rfl⟩

def Action.attaches (server : ServerId) : Action → Bool
  | .perform ⟨.attach x _ _, _⟩ => x = server
  | _ => false

namespace Session

/-- What is known about a server that is attached changes only by the commands that it gets. -/
theorem Change.bindings_cases {s t : Session} (hc : Change s t) : t.bindings = s.bindings ∨
    ∃ server b commands, s.bindings.find? server = some b ∧
      t.bindings = s.bindings.insert server { b with localCommands := commands } := by
  cases hc with
  | registerCommand server command reaction =>
    unfold Session.registerCommand
    split
    next b hb => exact .inr ⟨server, b, _, hb, rfl⟩
    next => exact .inl rfl
  | report => exact .inl (by rw [report_frame])
  | giveUpRound => exact .inl (by rw [giveUpRound_frame])
  | openRound => exact .inl (by rw [openRound_frame])
  | cancelSignatureRound => exact .inl (by rw [cancelSignatureRound_frame])
  | openSignatureRound => exact .inl (by rw [openSignatureRound_frame])
  | takeSignature => exact .inl (by rw [takeSignature_frame])
  | sendCommand => exact .inl (by rw [send_frame])
  | answer => exact .inl (by rw [answer_frame])
  | _ => exact .inl rfl

theorem Change.contains_bindings {s t : Session} (hc : Change s t) {server : ServerId}
    (h : t.bindings.contains server = true) : s.bindings.contains server = true := by
  rcases hc.bindings_cases with he | ⟨x, b, commands, hb, he⟩
  · rwa [he] at h
  · rw [he] at h
    rcases Table.contains_insert.mp h with rfl | h
    · exact Option.isSome_of_eq_some hb
    · exact h

theorem TextChange.bindings_eq {s t : Session} (hc : TextChange s t) : t.bindings = s.bindings := by
  rw [hc.frame]

theorem Evolves.contains_bindings {s t : Session} (h : Evolves s t) {server : ServerId}
    (ht : t.bindings.contains server = true) : s.bindings.contains server = true := by
  induction h with
  | refl => exact ht
  | tail _ hc ih =>
    rcases hc with hc | hc
    · exact ih (hc.contains_bindings ht)
    · exact ih (hc.bindings_eq ▸ ht)

theorem act_contains_bindings {s : Session} {a : Action} {server : ServerId}
    (ha : a.attaches server = false) (h : (s.act a).bindings.contains server = true) :
    s.bindings.contains server = true := by
  cases a with
  | perform o =>
    rcases perform_cases s o with ho | ⟨x, capabilities, options, ho⟩ | ⟨x, ho⟩ | ⟨selection, ho⟩
    · exact Evolves.contains_bindings (Quiet.evolves ho) h
    all_goals
      obtain ⟨o, hd⟩ := o
      subst ho
    · change (s.attach x capabilities options).bindings.contains server = true at h
      rw [attach_frame] at h
      rcases Table.contains_insert.mp h with rfl | h
      · simp [Action.attaches] at ha
      · exact h
    · change (s.detach x).bindings.contains server = true at h
      unfold detach at h
      split at h
      · rw [detachFromRound_frame, detachFromSignature_frame] at h
        exact (Table.contains_erase.mp h).2
      · exact h
    · exact Evolves.contains_bindings (completeDone_evolves s _) h
  | deliver place =>
    change (s.deliver place).bindings.contains server = true at h
    rcases deliver_cases s place with hd | ⟨_, x, id, reply, _, _, hd⟩ | ⟨_, _, _, hm, live, hd⟩
    · exact Evolves.contains_bindings (Quiet.evolves hd) h
    · rwa [hd, takeCompletion_frame] at h
    · rw [hd] at h
      exact Evolves.contains_bindings (takeResolved_evolves hm live) h

/-- While a server is detached, all changes keep what they keep in states in which it is. -/
theorem after_detached {server : ServerId} {P : Session → Prop}
    (change : ∀ s t, Change s t → s.bindings.contains server = false → P s → P t)
    (textChange : ∀ s t, TextChange s t → s.bindings.contains server = false → P s → P t)
    (roundChange : ∀ s t, RoundChange s t → s.bindings.contains server = false →
      t.bindings.contains server = false → P s → P t)
    {s : Session} (h : s.bindings.contains server = false) (hs : P s) (actions : List Action)
    (ha : ∀ a ∈ actions, a.attaches server = false) :
    (s.after actions).bindings.contains server = false ∧ P (s.after actions) := by
  have evolves {s t : Session} (he : Evolves s t) (h : s.bindings.contains server = false)
      (hs : P s) : P t := by
    induction he with
    | refl => exact hs
    | tail hb hc ih =>
      have hb := Bool.eq_false_iff.mpr fun hu =>
        Bool.false_ne_true (h.symm.trans (Evolves.contains_bindings hb hu))
      exact hc.elim (fun hc => change _ _ hc hb ih) (fun hc => textChange _ _ hc hb ih)
  induction actions generalizing s with
  | nil => exact ⟨h, hs⟩
  | cons a actions ih =>
    have hact : (s.act a).bindings.contains server = false := Bool.eq_false_iff.mpr fun hu =>
      Bool.false_ne_true (h.symm.trans (act_contains_bindings (ha a List.mem_cons_self) hu))
    refine ih hact ?_ fun b hb => ha b (List.mem_cons_of_mem _ hb)
    rcases s.act_cases a with he | hr
    · exact evolves he h hs
    · exact roundChange _ _ hr h hact hs

theorem detach_contains_bindings (s : Session) (server : ServerId) :
    (s.detach server).bindings.contains server = false := by
  unfold detach
  split
  · rw [detachFromRound_frame, detachFromSignature_frame]
    refine Bool.eq_false_iff.mpr fun h => ?_
    exact (Table.contains_erase.mp h).1 rfl
  next h => exact Bool.eq_false_iff.mpr h

/-- A request of the server about completion or signature help is given up, here and where it was
sent. -/
theorem Remembers.detach_cancels {s : Session} (h : Remembers s) {n : Nat} {r : Request}
    (attached : s.bindings.contains r.server = true) (ho : s.Outstanding n r)
    (hp : r.purpose.isCompletion = true ∨ r.purpose = .signatureHelp) :
    s.cancels.count n = 0 ∧
      (s.detach r.server).cancels.count n = (if s.cancellable then 1 else 0) ∧
      ∃ q, (s.detach r.server).requests[n]? = some q ∧ q.live = false := by
  have hpend : s.helpPending? r.server = some n ∨ s.pending? r.server = some n := by
    rcases hp with hp | hp
    · obtain ⟨c, hc, hn⟩ := h.completion ho hp
      exact .inr (by rw [pending?, hc]; exact hn)
    · obtain ⟨g, hg, hn⟩ := h.help n r ho hp
      exact .inl (by rw [helpPending?, hg]; exact hn)
  have hq := s.detach_requests attached n
  rw [ho.sent, Option.map_some, if_pos hpend] at hq
  refine ⟨?_, ?_, _, hq, rfl⟩
  · rw [h.coherent.accounts.runs, ho.sent, Option.map_some, h.handle n r ho.sent ho.live]
    exact s.freshHandle_runs
  · rw [(detach_coherent h.coherent r.server).accounts.runs, hq, Option.map_some,
      h.handle n r ho.sent ho.live, freshHandle]
    split <;> rfl

/-- A request for the missing parts of an accepted item goes on. -/
theorem Remembers.detach_keeps {s : Session} (h : Remembers s) {n : Nat} {r : Request}
    (attached : s.bindings.contains r.server = true) (ho : s.Outstanding n r)
    (hp : r.purpose = .resolve) :
    (s.detach r.server).cancels.count n = 0 ∧ (s.detach r.server).Outstanding n r := by
  have hpur : s.purpose? n = some .resolve := by rw [purpose?, ho.sent, Option.map_some, hp]
  have hpend : ¬ (s.helpPending? r.server = some n ∨ s.pending? r.server = some n) := by
    rintro (he | he)
    · obtain ⟨g, hg, hn⟩ := Option.bind_eq_some_iff.mp he
      have hs := h.coherent.signature g n hg (.inr ((Table.mem_values_iff _ _).mpr ⟨_, hn⟩))
      rw [hpur] at hs
      cases hs
    · obtain ⟨c, hc, hn⟩ := Option.bind_eq_some_iff.mp he
      have hs := h.coherent.ofRound c r.server n hc hn
      rw [hpur] at hs
      cases hs
  have hq := s.detach_requests attached n
  rw [ho.sent, Option.map_some, if_neg hpend] at hq
  have hw : (s.detach r.server).waiting = s.waiting := by rw [waiting, waiting, detach_frame]
  refine ⟨?_, hq, ho.live, hw ▸ ho.unhandled⟩
  rw [(detach_coherent h.coherent r.server).accounts.runs, hq, Option.map_some,
    h.handle n r ho.sent ho.live]
  exact s.freshHandle_runs

/-- Of all answers, only that for the accepted item changes the text. -/
theorem deliver_buffer {s : Session} {place n : Nat} {server : ServerId} {purpose : Purpose}
    {reply : Reply} (hm : s.queue[place]? = some (.reply n server purpose reply))
    (h : (s.deliver place).buffer ≠ s.buffer) :
    purpose = .resolve ∧ s.isLive (.reply n server purpose reply) = true := by
  unfold deliver at h
  rw [hm] at h
  have hl : isLive { s with queue := s.queue.eraseIdx place } (.reply n server purpose reply) =
      s.isLive (.reply n server purpose reply) := rfl
  dsimp only [handle] at h
  rw [hl] at h
  cases purpose with
  | resolve =>
    dsimp only at h
    refine ⟨rfl, Classical.by_contradiction fun hn => ?_⟩
    rw [if_neg hn] at h
    exact h rfl
  | completion id =>
    refine absurd ?_ h
    dsimp only
    split
    · rw [takeCompletion_frame]
    · rfl
  | signatureHelp =>
    refine absurd ?_ h
    dsimp only
    split
    · rw [takeSignature_frame]
    · rfl
  | command name =>
    refine absurd ?_ h
    dsimp only [takeCommandReply]
    split
    · rfl
    · rw [report_frame]

theorem TextChange.resolve_cases {s t : Session} (hc : TextChange s t) :
    t.resolve = s.resolve ∨ t.resolve = none ∨
      ∃ p, t.resolve = some p ∧ s.bindings.contains p.payload.server = true := by
  cases hc with
  | supersedeResolve => exact .inr (.inl (by rw [supersedeResolve_frame]))
  | sendResolve payload expansion _ ha => exact .inr (.inr ⟨_, rfl, ha⟩)
  | takeUp => exact .inr (.inl rfl)
  | expand => exact .inl (by rw [expand_frame])
  | _ => exact .inl rfl

/-- While a server is detached, no item of it is held that was not held before. -/
theorem after_detached_resolve {s : Session} {server : ServerId}
    (h : s.bindings.contains server = false) (actions : List Action)
    (ha : ∀ a ∈ actions, a.attaches server = false) {p : PendingResolve}
    (hp : (s.after actions).resolve = some p) (hs : p.payload.server = server) :
    s.resolve = some p := by
  refine (after_detached (P := fun t => ∀ p, t.resolve = some p → p.payload.server = server →
    s.resolve = some p) (fun t u hc _ ht p hp => ?_) (fun t u hc hd ht p hp hs => ?_)
    (fun t u hc _ _ ht p hp => ?_) h (fun _ hp _ => hp) actions ha).2 p hp hs
  · exact ht p (hc.resolve_eq ▸ hp)
  · rcases hc.resolve_cases with he | he | ⟨q, he, hq⟩
    · exact ht p (he ▸ hp) hs
    · rw [he] at hp
      cases hp
    · obtain rfl := Option.some.inj (he.symm.trans hp)
      rw [hs, hd] at hq
      exact Bool.noConfusion hq
  · exact ht p (hc.resolve_eq ▸ hp)

/-- In every run, detaching a server cancels what it was asked about completion and signature help,
and afterwards its answers change nothing in the buffer, except that to the request for the missing
parts of an accepted item: it goes on, and its answer is counted in UTF-16. -/
theorem detach_settlesRequests (setup : Setup) (past later : List Action) (server : ServerId)
    (attached : (setup.session.after past).bindings.contains server = true)
    (gone : ∀ a ∈ later, a.attaches server = false) :
    let s := setup.session.after past
    let t := s.detach server
    let u := t.after later
    (∀ n r, s.Outstanding n r → r.server = server →
      (r.purpose.isCompletion = true ∨ r.purpose = .signatureHelp →
        s.cancels.count n = 0 ∧ t.cancels.count n = (if s.cancellable then 1 else 0) ∧
          ∃ q, t.requests[n]? = some q ∧ q.live = false) ∧
      (r.purpose = .resolve → t.cancels.count n = 0 ∧ t.Outstanding n r)) ∧
    t.resolve = s.resolve ∧ u.encodingOf server = .utf16 ∧
    ∀ place n purpose reply, u.queue[place]? = some (.reply n server purpose reply) →
      (u.deliver place).buffer ≠ u.buffer →
        purpose = .resolve ∧ ∃ p, s.resolve = some p ∧ u.resolve = some p ∧ p.number = n ∧
          p.payload.server = server := by
  intro s t u
  have hs : Remembers s := after_remembers setup past
  have ht : t.bindings.contains server = false := s.detach_contains_bindings server
  have hu : Remembers u := by
    have h := after_remembers setup (past ++ .perform ⟨.detach server, rfl⟩ :: later)
    rwa [after_append] at h
  have hdet : u.bindings.contains server = false :=
    (after_detached (P := fun _ => True) (fun _ _ _ _ _ => trivial) (fun _ _ _ _ _ => trivial)
      (fun _ _ _ _ _ _ => trivial) ht trivial later gone).1
  have hres : t.resolve = s.resolve := by
    change (s.detach server).resolve = s.resolve
    rw [detach_frame]
  refine ⟨fun n r ho hr => ?_, hres, ?_, fun place n purpose reply hm hb => ?_⟩
  · subst hr
    exact ⟨hs.detach_cancels attached ho, hs.detach_keeps attached ho⟩
  · have hn : u.bindings.find? server = none := Option.isNone_iff_eq_none.mp (by
      rwa [Table.contains, ← Option.not_isNone, Bool.not_eq_false'] at hdet)
    rw [encodingOf, hn]
    rfl
  · obtain ⟨rfl, live⟩ := deliver_buffer hm hb
    obtain ⟨r, ho, rfl, hp, _⟩ := hu.outstanding_of_live hm live
    obtain ⟨p, hres', hp, hn⟩ := hu.resolve n r ho hp
    exact ⟨rfl, p, hres ▸ after_detached_resolve ht later gone hres' hp, hres', hn, hp⟩

/-- An item of the one server was accepted, and then it was asked for signature help. -/
def twoRequests : Setup × List Action :=
  ({ config := {}, uri := "file:///a", lines := [[]], cursor := ⟨0, 0⟩, missing := [],
     signatureView := true, snippets := [], matcher := ⟨fun _ _ => true⟩, commands := none,
     cancellable := true },
   [.perform ⟨.attach ⟨1⟩
      { completion := some { resolves := true }, signatureHelp := some {} } {}, rfl⟩,
    .perform ⟨.completeDone (.given (.ofPayload ⟨⟨1⟩, { label := "foo" }⟩ false 0)), rfl⟩,
    .askForHelp])

theorem detach_settlesRequests_twoRequests :
    let t := (twoRequests.1.session.after twoRequests.2).detach ⟨1⟩
    t.cancels.count 1 = 1 ∧ t.cancels.count 0 = 0 ∧ ∃ r, t.Outstanding 0 r ∧ r.purpose = .resolve := by
  intro t
  obtain ⟨h, _⟩ := detach_settlesRequests twoRequests.1 twoRequests.2 [] ⟨1⟩ (by decide +kernel)
    (by simp)
  have hr := (h 0 ⟨⟨1⟩, .resolve, true, true, .cancellable⟩ ⟨rfl, rfl, .inl rfl⟩ rfl).2 rfl
  have hc := (h 1 ⟨⟨1⟩, .signatureHelp, true, true, .cancellable⟩ ⟨rfl, rfl, .inl rfl⟩ rfl).1
    (.inr rfl)
  exact ⟨hc.2.1, hr.1, _, hr.2, rfl⟩

end Session
end Autocomplete
