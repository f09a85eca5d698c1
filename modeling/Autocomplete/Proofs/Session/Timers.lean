import Autocomplete.Proofs.Session.Asking

/-! Timers and their tokens. The only tokens that are live are those of the timers that are armed, so
that the message of a timer that was dropped or replaced, wherever it waits, has no effect. Handling
the message of an armed timer takes whatever timer of its kind is armed, and this is that one. -/
namespace Autocomplete

/-- The timer that posted a message. -/
def Message.timer? : Message → Option (TimerKind × Nat)
  | .timer kind serial => some (kind, serial)
  | .reply .. => none

namespace Session

def armed? (s : Session) : TimerKind → Option Timer
  | .completion => s.completionTimer.map (·.timer)
  | .signatureHelp => s.signatureTimer.map (·.timer)

/-- The timers whose messages wait to be handled. -/
def posts (s : Session) : List (TimerKind × Nat) := s.queue.filterMap Message.timer?

/-- The message at some place is taken from the queue, and at most the log tells of it. -/
def PassesOver (s : Session) (place : Nat) : Prop :=
  ∃ records, s.deliver place = { s with queue := s.queue.eraseIdx place }.logAll records

theorem mem_posts {s : Session} {kind : TimerKind} {serial : Nat} :
    (kind, serial) ∈ s.posts ↔ .timer kind serial ∈ s.queue := by
  constructor
  · intro h
    obtain ⟨m, hm, he⟩ := List.mem_filterMap.mp h
    cases m with
    | timer k n =>
      obtain ⟨rfl, rfl⟩ := Prod.mk.inj (Option.some.inj he)
      exact hm
    | reply => cases he
  · intro h
    exact List.mem_filterMap.mpr ⟨_, h, rfl⟩

theorem tokensWithout_getElem? (s : Session) (timer : Option Timer) (k : Nat) :
    (s.tokensWithout timer)[k]? = s.tokens[k]?.map fun token =>
      if timer.map (·.serial) = some k then { token with live := false } else token := by
  cases timer with
  | none => simp [tokensWithout]
  | some timer => simp [tokensWithout, List.getElem?_modify]

theorem tokensWithout_length (s : Session) (timer : Option Timer) :
    (s.tokensWithout timer).length = s.tokens.length := by
  cases timer with
  | none => rfl
  | some timer => exact List.length_modify ..

inductive TimerStep (s t : Session) : Prop where
  | same (tokens : t.tokens = s.tokens) (armed : ∀ kind, t.armed? kind = s.armed? kind)
      (posts : t.posts.Sublist s.posts) (now : t.now = s.now)
  | drop (kind : TimerKind) (tokens : t.tokens = s.tokensWithout (s.armed? kind))
      (gone : t.armed? kind = none) (others : ∀ k, k ≠ kind → t.armed? k = s.armed? k)
      (posts : t.posts = s.posts) (now : t.now = s.now)
  | arm (kind : TimerKind) (timer : Timer) (fresh : timer.serial = s.tokens.length)
      (unposted : timer.posted = false)
      (tokens : t.tokens = s.tokensWithout (s.armed? kind) ++ [⟨kind, true⟩])
      (armed : t.armed? kind = some timer) (others : ∀ k, k ≠ kind → t.armed? k = s.armed? k)
      (posts : t.posts = s.posts) (now : t.now = s.now)
  | elapse (ms : Nat) (h : t = s.elapse ms)

/-- What has nothing to do with timers may still take a message from the queue. -/
theorem TimerStep.aside {s t : Session} (tokens : t.tokens = s.tokens)
    (completion : t.completionTimer = s.completionTimer)
    (signature : t.signatureTimer = s.signatureTimer) (posts : t.posts.Sublist s.posts)
    (now : t.now = s.now) : TimerStep s t := by
  refine .same tokens (fun kind => ?_) posts now
  cases kind with
  | completion => rw [armed?, armed?, completion]
  | signatureHelp => rw [armed?, armed?, signature]

theorem posts_discard (s : Session) (place : Nat) :
    List.Sublist ({ s with queue := s.queue.eraseIdx place } : Session).posts s.posts :=
  (List.eraseIdx_sublist s.queue place).filterMap _

theorem answer_posts (s : Session) (n : Nat) (reply : Reply) :
    (s.answer n reply).posts = s.posts := by
  rcases s.answer_queue n reply with h | ⟨r, _, _, _, h⟩
  · rw [posts, h, posts]
  · rw [posts, h, List.filterMap_append]
    exact List.append_nil _

theorem send_posts (s : Session) (server : ServerId) (purpose : Purpose) (params : Json) :
    (s.send server purpose params).1.posts = s.posts := by
  rcases (s.send_eq server purpose params).2 with h | ⟨reply, h⟩
  · rw [h]
    rfl
  · rw [h, answer_posts]
    rfl

theorem askAll_posts (purpose : Purpose) (params : Session → Binding → Json) (s : Session)
    (bs : List Binding) : (askAll purpose params s bs).1.posts = s.posts := by
  refine askAll_induction purpose params (P := fun t _ => t.posts = s.posts)
    (fun t _ server json ht => ?_) bs s [] rfl
  rw [send_posts, ht]

theorem openRound_posts (s : Session) (trigger : Trigger) :
    (s.openRound trigger).posts = s.posts := by
  have ha := askAll_posts (.completion s.lastId.next) (fun s b => s.completionParams trigger b)
    { s with lastId := s.lastId.next } (s.bindings.values.filter (·.completes))
  unfold openRound
  dsimp only
  generalize askAll (.completion s.lastId.next) (fun s b => s.completionParams trigger b)
    { s with lastId := s.lastId.next } (s.bindings.values.filter (·.completes)) = result at ha ⊢
  split
  · exact ha
  · exact ha

theorem openSignatureRound_posts (s : Session) (trigger : Option Char) :
    (s.openSignatureRound trigger).posts = s.posts := by
  have ha := askAll_posts .signatureHelp (fun s b => s.signatureParams trigger b) s
    (s.bindings.values.filter (wantsSignature trigger))
  unfold openSignatureRound
  dsimp only
  generalize askAll .signatureHelp (fun s b => s.signatureParams trigger b) s
    (s.bindings.values.filter (wantsSignature trigger)) = result at ha ⊢
  split
  · exact ha
  · exact ha

theorem Change.timerStep {s t : Session} (h : Change s t) : TimerStep s t := by
  cases h with
  | armCompletion delay trigger phase =>
    refine .arm .completion (s.newTimer delay) rfl rfl rfl rfl (fun k hk => ?_) rfl rfl
    cases k with
    | completion => exact absurd rfl hk
    | signatureHelp => rfl
  | armSignatureHelp delay c =>
    refine .arm .signatureHelp (s.newTimer delay) rfl rfl rfl rfl (fun k hk => ?_) rfl rfl
    cases k with
    | completion => rfl
    | signatureHelp => exact absurd rfl hk
  | dropCompletionTimer =>
    refine .drop .completion rfl rfl (fun k hk => ?_) rfl rfl
    cases k with
    | completion => exact absurd rfl hk
    | signatureHelp => rfl
  | dropSignatureTimer =>
    refine .drop .signatureHelp rfl rfl (fun k hk => ?_) rfl rfl
    cases k with
    | completion => rfl
    | signatureHelp => exact absurd rfl hk
  | elapse ms => exact .elapse ms rfl
  | report message =>
    have hf := s.report_frame .warning message
    exact .aside (by rw [hf]) (by rw [hf]) (by rw [hf]) (by rw [posts, hf]; exact .refl _)
      (by rw [hf])
  | registerCommand server command reaction =>
    have hf := s.registerCommand_frame server command reaction
    exact .aside (by rw [hf]) (by rw [hf]) (by rw [hf]) (by rw [posts, hf]; exact .refl _)
      (by rw [hf])
  | giveUpRound reason =>
    have hf := s.giveUpRound_frame reason
    exact .aside (by rw [hf]) (by rw [hf]) (by rw [hf]) (by rw [posts, hf]; exact .refl _)
      (by rw [hf])
  | openRound trigger =>
    have hf := s.openRound_frame trigger
    exact .aside (by rw [hf]) (by rw [hf]) (by rw [hf]) (by rw [openRound_posts]) (by rw [hf])
  | cancelSignatureRound =>
    have hf := s.cancelSignatureRound_frame
    exact .aside (by rw [hf]) (by rw [hf]) (by rw [hf]) (by rw [posts, hf]; exact .refl _)
      (by rw [hf])
  | openSignatureRound trigger =>
    have hf := s.openSignatureRound_frame trigger
    exact .aside (by rw [hf]) (by rw [hf]) (by rw [hf]) (by rw [openSignatureRound_posts])
      (by rw [hf])
  | takeSignature place number server reply =>
    have hf := takeSignature_frame { s with queue := s.queue.eraseIdx place } server reply
    exact .aside (by rw [hf]) (by rw [hf]) (by rw [hf])
      (by rw [posts, hf]; exact posts_discard s place) (by rw [hf])
  | sendCommand server name params =>
    have hf := s.send_frame server (.command name) params
    exact .aside (by rw [hf]) (by rw [hf]) (by rw [hf]) (by rw [send_posts]) (by rw [hf])
  | answer n reply =>
    have hf := s.answer_frame n reply
    exact .aside (by rw [hf]) (by rw [hf]) (by rw [hf]) (by rw [answer_posts]) (by rw [hf])
  | discard place => exact .aside rfl rfl rfl (posts_discard s place) rfl
  | _ => exact .aside rfl rfl rfl (.refl _) rfl

theorem TextChange.timerStep {s t : Session} (h : TextChange s t) : TimerStep s t := by
  cases h with
  | supersedeResolve =>
    have hf := s.supersedeResolve_frame
    exact .aside (by rw [hf]) (by rw [hf]) (by rw [hf]) (by rw [posts, hf]; exact .refl _)
      (by rw [hf])
  | sendResolve payload expansion =>
    have hp := s.send_posts payload.server .resolve payload.item.encode
    have hf := s.send_frame payload.server .resolve payload.item.encode
    unfold Session.sendResolve
    generalize s.send payload.server .resolve payload.item.encode = result at hp hf
    obtain ⟨u, n⟩ := result
    dsimp only at hp hf ⊢
    exact .aside (by rw [hf]; rfl) (by rw [hf]; rfl) (by rw [hf]; rfl) (by rw [← hp]; exact .refl _)
      (by rw [hf]; rfl)
  | takeUp place => exact .aside rfl rfl rfl (posts_discard s place) rfl
  | expand e =>
    have hf := s.expand_frame e
    exact .aside (by rw [hf]) (by rw [hf]) (by rw [hf]) (by rw [posts, hf]; exact .refl _)
      (by rw [hf])
  | _ => exact .aside rfl rfl rfl (.refl _) rfl

theorem RoundChange.timerStep {s t : Session} (h : RoundChange s t) : TimerStep s t := by
  cases h with
  | attach server capabilities options =>
    have hf := s.attach_frame server capabilities options
    exact .aside (by rw [hf]) (by rw [hf]) (by rw [hf]) (by rw [posts, hf]; exact .refl _)
      (by rw [hf])
  | detach server =>
    have hf := s.detach_frame server
    exact .aside (by rw [hf]) (by rw [hf]) (by rw [hf]) (by rw [posts, hf]; exact .refl _)
      (by rw [hf])
  | takeCompletion place number server id reply =>
    have hf := takeCompletion_frame { s with queue := s.queue.eraseIdx place } id server reply
    exact .aside (by rw [hf]) (by rw [hf]) (by rw [hf])
      (by rw [posts, hf]; exact posts_discard s place) (by rw [hf])

theorem mem_armedTimers (s : Session) (kind : TimerKind) (timer : Timer) :
    (kind, timer) ∈ s.armedTimers ↔ s.armed? kind = some timer := by
  unfold armedTimers
  cases hc : s.completionTimer <;> cases hg : s.signatureTimer <;> cases kind <;>
    simp only [armed?, hc, hg, Option.map_none, Option.map_some] <;> grind

theorem nodup_armedTimers (s : Session) : (s.armedTimers.map (·.1)).Nodup := by
  unfold armedTimers
  split
  · exact .nil
  · simp
  · simp
  · split <;> simp

theorem elapse_armed? (s : Session) (ms : Nat) (kind : TimerKind) :
    (s.elapse ms).armed? kind = (s.armed? kind).map (markPosted { s with now := s.now + ms }) := by
  cases kind with
  | completion =>
    change Option.map _ (Option.map _ s.completionTimer) = Option.map _ (Option.map _ s.completionTimer)
    rw [Option.map_map, Option.map_map]
    rfl
  | signatureHelp =>
    change Option.map _ (Option.map _ s.signatureTimer) = Option.map _ (Option.map _ s.signatureTimer)
    rw [Option.map_map, Option.map_map]
    rfl

theorem markPosted_serial (s : Session) (timer : Timer) :
    (s.markPosted timer).serial = timer.serial := by
  unfold markPosted
  split <;> rfl

/-- The timers that post their messages when time passes. -/
def falling (s : Session) (ms : Nat) : List (TimerKind × Nat) :=
  s.armedTimers.filterMap fun (kind, timer) =>
    if !timer.posted && timer.due ≤ s.now + ms then some (kind, timer.serial) else none

theorem elapse_posts (s : Session) (ms : Nat) :
    (s.elapse ms).posts = s.posts ++ s.falling ms := by
  change (s.queue ++ s.armedTimers.filterMap _).filterMap Message.timer? = _
  rw [List.filterMap_append, List.filterMap_filterMap]
  congr 2
  funext ⟨kind, timer⟩
  simp only [dueMessage?]
  split <;> rfl

theorem mem_falling {s : Session} {ms : Nat} {kind : TimerKind} {serial : Nat} :
    (kind, serial) ∈ s.falling ms ↔ ∃ timer, s.armed? kind = some timer ∧ timer.serial = serial ∧
      timer.posted = false ∧ timer.due ≤ s.now + ms := by
  constructor
  · intro h
    obtain ⟨⟨k, timer⟩, hm, he⟩ := List.mem_filterMap.mp h
    dsimp only at he
    split at he
    next hd =>
      obtain ⟨rfl, rfl⟩ := Prod.mk.inj (Option.some.inj he)
      exact ⟨timer, (mem_armedTimers ..).mp hm, rfl, by simpa using hd⟩
    next => cases he
  · rintro ⟨timer, ha, rfl, hp, hd⟩
    refine List.mem_filterMap.mpr ⟨_, (mem_armedTimers ..).mpr ha, ?_⟩
    simp [hp, hd]

theorem nodup_falling (s : Session) (ms : Nat) : (s.falling ms).Nodup := by
  have h := List.pairwise_map.mp s.nodup_armedTimers
  refine List.Pairwise.filterMap _ (fun a b hab x hx y hy => ?_) h
  have kind {e : TimerKind × Timer} {z : TimerKind × Nat}
      (hz : (if !e.2.posted && e.2.due ≤ s.now + ms then some (e.1, e.2.serial) else none) =
        some z) : z.1 = e.1 := by
    split at hz
    · exact (congrArg Prod.fst (Option.some.inj hz)).symm
    · cases hz
  intro he
  exact hab ((kind hx).symm.trans ((congrArg Prod.fst he).trans (kind hy)))

structure Timely (s : Session) : Prop where
  live_iff : ∀ kind serial, s.tokens[serial]? = some ⟨kind, true⟩ ↔
    ∃ timer, s.armed? kind = some timer ∧ timer.serial = serial
  known : ∀ kind serial, (kind, serial) ∈ s.posts →
    ∃ live, s.tokens[serial]? = some ⟨kind, live⟩
  once : s.posts.Nodup
  due : ∀ kind timer, s.armed? kind = some timer → timer.posted = true → timer.due ≤ s.now
  posted : ∀ kind timer, s.armed? kind = some timer → (kind, timer.serial) ∈ s.posts →
    timer.posted = true

theorem timely_setup (setup : Setup) : Timely setup.session where
  live_iff kind serial := by
    constructor
    · intro h
      cases h
    · rintro ⟨timer, h, _⟩
      cases kind <;> cases h
  known _ _ h := absurd h List.not_mem_nil
  once := .nil
  due kind _ h := by cases kind <;> cases h
  posted kind _ h := by cases kind <;> cases h

namespace Timely

variable {s t : Session}

/-- Timers of two kinds have different tokens. -/
theorem kind_unique (h : Timely s) {j k : TimerKind} {a b : Timer} (ha : s.armed? j = some a)
    (hb : s.armed? k = some b) (he : a.serial = b.serial) : j = k := by
  have hj := (h.live_iff j a.serial).mpr ⟨a, ha, rfl⟩
  have hk := (h.live_iff k a.serial).mpr ⟨b, hb, he.symm⟩
  exact congrArg TimerToken.kind (Option.some.inj (hj.symm.trans hk))

theorem serial_lt (h : Timely s) {kind : TimerKind} {timer : Timer}
    (ha : s.armed? kind = some timer) : timer.serial < s.tokens.length :=
  (List.getElem?_eq_some_iff.mp ((h.live_iff kind timer.serial).mpr ⟨timer, ha, rfl⟩)).1

/-- Once a timer is dropped, what is live are the tokens of the others. -/
theorem live_iff_tokensWithout (h : Timely s) (kind k : TimerKind) (serial : Nat) :
    (s.tokensWithout (s.armed? kind))[serial]? = some ⟨k, true⟩ ↔
      k ≠ kind ∧ ∃ timer, s.armed? k = some timer ∧ timer.serial = serial := by
  rw [tokensWithout_getElem?]
  constructor
  · intro hl
    obtain ⟨token, ht, he⟩ := Option.map_eq_some_iff.mp hl
    split at he
    next => cases he
    next hne =>
      subst he
      obtain ⟨timer, ha, rfl⟩ := (h.live_iff k serial).mp ht
      refine ⟨?_, timer, ha, rfl⟩
      rintro rfl
      exact hne (by rw [ha]; rfl)
  · rintro ⟨hk, timer, ha, rfl⟩
    rw [(h.live_iff k timer.serial).mpr ⟨timer, ha, rfl⟩, Option.map_some, if_neg]
    intro he
    obtain ⟨other, ho, hs⟩ := Option.map_eq_some_iff.mp he
    exact hk (h.kind_unique ho ha hs).symm

theorem known_tokensWithout (h : Timely s) (kind : TimerKind) {k : TimerKind} {serial : Nat}
    (hp : (k, serial) ∈ s.posts) :
    ∃ live, (s.tokensWithout (s.armed? kind))[serial]? = some ⟨k, live⟩ := by
  obtain ⟨live, hl⟩ := h.known k serial hp
  rw [tokensWithout_getElem?, hl, Option.map_some]
  split
  · exact ⟨false, rfl⟩
  · exact ⟨live, rfl⟩

theorem drop (h : Timely s) {kind : TimerKind}
    (tokens : t.tokens = s.tokensWithout (s.armed? kind)) (gone : t.armed? kind = none)
    (others : ∀ k, k ≠ kind → t.armed? k = s.armed? k) (posts : t.posts = s.posts)
    (now : t.now = s.now) : Timely t := by
  have before {k : TimerKind} {timer : Timer} (ha : t.armed? k = some timer) :
      k ≠ kind ∧ s.armed? k = some timer := by
    by_cases hk : k = kind
    · subst hk
      rw [gone] at ha
      cases ha
    · exact ⟨hk, others k hk ▸ ha⟩
  refine ⟨fun k serial => ?_, fun k serial hp => ?_, posts ▸ h.once, fun k timer ha hp => ?_,
    fun k timer ha hp => ?_⟩
  · rw [tokens, h.live_iff_tokensWithout]
    constructor
    · rintro ⟨hk, timer, ha, hs⟩
      exact ⟨timer, (others k hk).trans ha, hs⟩
    · rintro ⟨timer, ha, hs⟩
      exact ⟨(before ha).1, timer, (before ha).2, hs⟩
  · rw [tokens]
    exact h.known_tokensWithout kind (posts ▸ hp)
  · rw [now]
    exact h.due k timer (before ha).2 hp
  · exact h.posted k timer (before ha).2 (posts ▸ hp)

theorem arm (h : Timely s) {kind : TimerKind} {timer : Timer}
    (fresh : timer.serial = s.tokens.length) (unposted : timer.posted = false)
    (tokens : t.tokens = s.tokensWithout (s.armed? kind) ++ [⟨kind, true⟩])
    (armed : t.armed? kind = some timer) (others : ∀ k, k ≠ kind → t.armed? k = s.armed? k)
    (posts : t.posts = s.posts) (now : t.now = s.now) : Timely t := by
  have hlen := s.tokensWithout_length (s.armed? kind)
  have lookup (serial : Nat) : t.tokens[serial]? =
      if serial < s.tokens.length then (s.tokensWithout (s.armed? kind))[serial]?
      else if serial = s.tokens.length then some ⟨kind, true⟩ else none := by
    rw [tokens, ← hlen]
    split
    next hlt => exact List.getElem?_append_left hlt
    next hlt =>
      split
      next he => rw [he, List.getElem?_concat_length]
      next he =>
        refine List.getElem?_eq_none ?_
        rw [List.length_append, List.length_singleton]
        omega
  have unknown : (kind, timer.serial) ∉ s.posts := by
    intro hp
    obtain ⟨live, hl⟩ := h.known kind timer.serial hp
    rw [fresh, List.getElem?_eq_none (Nat.le_refl _)] at hl
    cases hl
  refine ⟨fun k serial => ?_, fun k serial hp => ?_, posts ▸ h.once, fun k other ha hp => ?_,
    fun k other ha hp => ?_⟩
  · by_cases hk : k = kind
    · subst hk
      rw [lookup, armed]
      constructor
      · intro hl
        split at hl
        · exact absurd rfl ((h.live_iff_tokensWithout k k serial).mp hl).1
        · split at hl
          next he => exact ⟨timer, rfl, fresh.trans he.symm⟩
          next => cases hl
      · rintro ⟨other, he, rfl⟩
        obtain rfl := Option.some.inj he
        rw [if_neg (by omega), if_pos fresh]
    · rw [lookup, others k hk]
      constructor
      · intro hl
        split at hl
        · exact ((h.live_iff_tokensWithout kind k serial).mp hl).2
        · split at hl
          next => exact absurd (congrArg TimerToken.kind (Option.some.inj hl)).symm hk
          next => cases hl
      · rintro ⟨other, ha, rfl⟩
        rw [if_pos (h.serial_lt ha)]
        exact (h.live_iff_tokensWithout kind k other.serial).mpr ⟨hk, other, ha, rfl⟩
  · rw [posts] at hp
    obtain ⟨live, hl⟩ := h.known k serial hp
    rw [lookup, if_pos (List.getElem?_eq_some_iff.mp hl).1]
    exact h.known_tokensWithout kind hp
  · by_cases hk : k = kind
    · subst hk
      obtain rfl := Option.some.inj (armed.symm.trans ha)
      rw [unposted] at hp
      cases hp
    · rw [now]
      exact h.due k other (others k hk ▸ ha) hp
  · rw [posts] at hp
    by_cases hk : k = kind
    · subst hk
      obtain rfl := Option.some.inj (armed.symm.trans ha)
      exact absurd hp unknown
    · exact h.posted k other (others k hk ▸ ha) hp

theorem elapse (h : Timely s) (ms : Nat) : Timely (s.elapse ms) := by
  have before {k : TimerKind} {timer : Timer} (ha : (s.elapse ms).armed? k = some timer) :
      ∃ other, s.armed? k = some other ∧ other.serial = timer.serial ∧
        timer.due = other.due ∧ timer.posted = (other.posted || decide (other.due ≤ s.now + ms)) := by
    rw [elapse_armed?] at ha
    obtain ⟨other, ho, rfl⟩ := Option.map_eq_some_iff.mp ha
    refine ⟨other, ho, (markPosted_serial _ _).symm, ?_⟩
    unfold markPosted
    split
    next hd => exact ⟨rfl, by simp [show other.due ≤ s.now + ms from hd]⟩
    next hd => exact ⟨rfl, by simp [show ¬ other.due ≤ s.now + ms from hd]⟩
  have after {k : TimerKind} {other : Timer} (ha : s.armed? k = some other) :
      ∃ timer, (s.elapse ms).armed? k = some timer ∧ timer.serial = other.serial :=
    ⟨_, by rw [elapse_armed?, ha]; rfl, markPosted_serial _ _⟩
  refine ⟨fun k serial => ?_, fun k serial hp => ?_, ?_, fun k timer ha hp => ?_,
    fun k timer ha hp => ?_⟩
  · change s.tokens[serial]? = _ ↔ _
    rw [h.live_iff]
    constructor
    · rintro ⟨other, ho, rfl⟩
      exact after ho
    · rintro ⟨timer, ha, rfl⟩
      obtain ⟨other, ho, hs, _⟩ := before ha
      exact ⟨other, ho, hs⟩
  · rw [elapse_posts] at hp
    rcases List.mem_append.mp hp with hp | hp
    · exact h.known k serial hp
    · obtain ⟨timer, ha, rfl, _⟩ := mem_falling.mp hp
      exact ⟨true, (h.live_iff k timer.serial).mpr ⟨timer, ha, rfl⟩⟩
  · rw [elapse_posts]
    refine List.nodup_append.mpr ⟨h.once, s.nodup_falling ms, fun a ha b hb he => ?_⟩
    subst he
    obtain ⟨k, serial⟩ := a
    obtain ⟨timer, hs, rfl, hp, _⟩ := mem_falling.mp hb
    rw [h.posted k timer hs ha] at hp
    cases hp
  · obtain ⟨other, ho, _, hdue, hpost⟩ := before ha
    rw [hdue]
    change other.due ≤ s.now + ms
    rw [hpost] at hp
    rcases Bool.or_eq_true_iff.mp hp with hp | hp
    · exact Nat.le_add_right_of_le (h.due k other ho hp)
    · exact of_decide_eq_true hp
  · obtain ⟨other, ho, hs, _, hpost⟩ := before ha
    rw [← hs, elapse_posts] at hp
    rw [hpost]
    rcases List.mem_append.mp hp with hp | hp
    · rw [h.posted k other ho hp, Bool.true_or]
    · obtain ⟨timer', ha', _, _, hd⟩ := mem_falling.mp hp
      obtain rfl := Option.some.inj (ho.symm.trans ha')
      rw [decide_eq_true hd, Bool.or_true]

end Timely

theorem TimerStep.timely {s t : Session} (ht : TimerStep s t) (h : Timely s) : Timely t := by
  cases ht with
  | same tokens armed posts now =>
    refine ⟨fun k serial => ?_, fun k serial hp => ?_, h.once.sublist posts, fun k timer ha hp => ?_,
      fun k timer ha hp => ?_⟩
    · rw [tokens, armed, h.live_iff]
    · rw [tokens]
      exact h.known k serial (posts.subset hp)
    · rw [now]
      exact h.due k timer (armed k ▸ ha) hp
    · exact h.posted k timer (armed k ▸ ha) (posts.subset hp)
  | drop kind tokens gone others posts now => exact h.drop tokens gone others posts now
  | arm kind timer fresh unposted tokens armed others posts now =>
    exact h.arm fresh unposted tokens armed others posts now
  | elapse ms ht =>
    subst ht
    exact h.elapse ms

theorem after_timely (setup : Setup) (actions : List Action) :
    Timely (setup.session.after actions) :=
  after_induction (fun _ _ hc h => hc.timerStep.timely h) (fun _ _ hc h => hc.timerStep.timely h)
    (fun _ _ hc h => hc.timerStep.timely h) (timely_setup setup) actions

/-- The token of a timer that was armed is not live. -/
def Dead (s : Session) (serial : Nat) : Prop :=
  ∃ kind, s.tokens[serial]? = some ⟨kind, false⟩

theorem Dead.isLive {s : Session} {serial : Nat} (h : s.Dead serial) (kind : TimerKind) :
    s.isLive (.timer kind serial) = false := by
  obtain ⟨k, hk⟩ := h
  simp [Session.isLive, hk]

theorem TimerStep.dead {s t : Session} (ht : TimerStep s t) {serial : Nat} (h : s.Dead serial) :
    t.Dead serial := by
  have without (timer : Option Timer) :
      ∃ kind, (s.tokensWithout timer)[serial]? = some ⟨kind, false⟩ := by
    obtain ⟨kind, hk⟩ := h
    refine ⟨kind, ?_⟩
    rw [tokensWithout_getElem?, hk, Option.map_some]
    split <;> rfl
  cases ht with
  | same tokens =>
    unfold Dead
    rw [tokens]
    exact h
  | drop kind tokens =>
    unfold Dead
    rw [tokens]
    exact without _
  | arm kind timer _ _ tokens =>
    obtain ⟨k, hk⟩ := without (s.armed? kind)
    refine ⟨k, ?_⟩
    rw [tokens, List.getElem?_append_left (List.getElem?_eq_some_iff.mp hk).1, hk]
  | elapse ms ht =>
    subst ht
    exact h

/-- A timer that was dropped is never armed again. -/
theorem after_dead {s : Session} {serial : Nat} (h : s.Dead serial) (actions : List Action) :
    (s.after actions).Dead serial :=
  after_induction (P := (Dead · serial)) (fun _ _ hc h => hc.timerStep.dead h)
    (fun _ _ hc h => hc.timerStep.dead h) (fun _ _ hc h => hc.timerStep.dead h) h actions

/-- A timer that was armed once and is not armed now has a token that is dead. -/
theorem Timely.dead {s : Session} (h : Timely s) {serial : Nat} (hl : serial < s.tokens.length)
    (hn : ∀ kind timer, s.armed? kind = some timer → timer.serial ≠ serial) : s.Dead serial := by
  have ht := List.getElem?_eq_getElem hl
  cases he : s.tokens[serial] with
  | mk kind live =>
    rw [he] at ht
    cases live with
    | false => exact ⟨kind, ht⟩
    | true =>
      obtain ⟨timer, ha, hs⟩ := (h.live_iff kind serial).mp ht
      exact absurd hs (hn kind timer ha)

/-- The message of a timer that is not armed is only logged. -/
theorem Dead.passesOver {s : Session} {place serial : Nat} {kind : TimerKind} (h : s.Dead serial)
    (hm : s.queue[place]? = some (.timer kind serial)) : s.PassesOver place := by
  refine ⟨[⟨.trace, "quill_completion::" ++ "engine", "Dropping expired timer", []⟩], ?_⟩
  rw [deliver_eq hm, h.isLive kind]
  rfl

/-- The message of an armed timer is handled, whatever it does. -/
theorem Timely.deliver_armed {s : Session} (h : Timely s) {place : Nat} {kind : TimerKind}
    {timer : Timer} (ha : s.armed? kind = some timer)
    (hm : s.queue[place]? = some (.timer kind timer.serial)) :
    s.deliver place =
      ({ s with queue := s.queue.eraseIdx place } : Session).handle true
        (.timer kind timer.serial) := by
  have ht := (h.live_iff kind timer.serial).mpr ⟨timer, ha, rfl⟩
  have hl : s.isLive (.timer kind timer.serial) = true := by simp [isLive, ht]
  rw [deliver_eq hm, hl]

/-- Starting a round has nothing to do with timers. -/
theorem startRound_timers (s : Session) (trigger : Trigger) :
    (s.startRound trigger).completionTimer = s.completionTimer ∧
      (s.startRound trigger).tokens = s.tokens := by
  unfold startRound
  rw [openRound_frame, giveUpRound_frame]
  exact ⟨rfl, rfl⟩

theorem startRound_lastId (s : Session) (trigger : Trigger) :
    (s.startRound trigger).lastId = s.lastId.next := by
  unfold startRound
  rw [openRound_frame, giveUpRound_frame]

theorem sendSignatureHelp_timers (s : Session) (trigger : Option Char) :
    (s.sendSignatureHelp trigger).signatureTimer = s.signatureTimer ∧
      (s.sendSignatureHelp trigger).tokens = s.tokens := by
  unfold sendSignatureHelp
  rw [openSignatureRound_frame, cancelSignatureRound_frame]
  exact ⟨rfl, rfl⟩

theorem Timely.deliver_completion {s : Session} (h : Timely s) {place : Nat}
    {scheduled : ScheduledCompletion} (hs : s.completionTimer = some scheduled)
    (hm : s.queue[place]? = some (.timer .completion scheduled.timer.serial)) :
    s.deliver place =
      ({ s with queue := s.queue.eraseIdx place } : Session).dropCompletionTimer.startRound
        scheduled.trigger := by
  have ha : s.armed? .completion = some scheduled.timer := by rw [armed?, hs, Option.map_some]
  rw [h.deliver_armed ha hm, handle, if_pos rfl, completionTimerElapsed, hs]

theorem Timely.deliver_signatureHelp {s : Session} (h : Timely s) {place : Nat}
    {scheduled : ScheduledSignatureHelp} (hs : s.signatureTimer = some scheduled)
    (hm : s.queue[place]? = some (.timer .signatureHelp scheduled.timer.serial)) :
    s.deliver place =
      ({ s with queue := s.queue.eraseIdx place } : Session).dropSignatureTimer.sendSignatureHelp
        (some scheduled.character) := by
  have ha : s.armed? .signatureHelp = some scheduled.timer := by rw [armed?, hs, Option.map_some]
  rw [h.deliver_armed ha hm, handle, if_pos rfl, signatureTimerElapsed, hs]

/-- Once the message of a timer was handled, its token is dead. -/
theorem Timely.dead_deliver {s : Session} (h : Timely s) {place serial : Nat} {kind : TimerKind}
    (hm : s.queue[place]? = some (.timer kind serial)) : (s.deliver place).Dead serial := by
  obtain ⟨live, hl⟩ := h.known kind serial (mem_posts.mpr (List.mem_of_getElem? hm))
  have without {timer : Timer} (ht : timer.serial = serial) :
      (s.tokensWithout (some timer))[serial]? = some ⟨kind, false⟩ := by
    rw [tokensWithout_getElem?, hl, Option.map_some, if_pos (by rw [Option.map_some, ht])]
  cases live with
  | false =>
    obtain ⟨records, hd⟩ := (show s.Dead serial from ⟨kind, hl⟩).passesOver hm
    rw [hd]
    exact ⟨kind, hl⟩
  | true =>
    obtain ⟨timer, ha, ht⟩ := (h.live_iff kind serial).mp hl
    refine ⟨kind, ?_⟩
    cases kind with
    | completion =>
      obtain ⟨scheduled, hs, rfl⟩ := Option.map_eq_some_iff.mp ha
      rw [h.deliver_completion hs (ht ▸ hm), (startRound_timers ..).2]
      change (s.tokensWithout (s.completionTimer.map (·.timer)))[serial]? = _
      rw [hs]
      exact without ht
    | signatureHelp =>
      obtain ⟨scheduled, hs, rfl⟩ := Option.map_eq_some_iff.mp ha
      rw [h.deliver_signatureHelp hs (ht ▸ hm), (sendSignatureHelp_timers ..).2]
      change (s.tokensWithout (s.signatureTimer.map (·.timer)))[serial]? = _
      rw [hs]
      exact without ht

/-- An armed timer has not been heard of before. -/
theorem armed_unhandled (setup : Setup) {past before rest : List Action} {place : Nat}
    (hp : past = before ++ .deliver place :: rest) {kind : TimerKind} {timer : Timer}
    (ha : (setup.session.after past).armed? kind = some timer) :
    (setup.session.after before).queue[place]? ≠ some (.timer kind timer.serial) := by
  intro hm
  have hd : (setup.session.after past).Dead timer.serial := by
    rw [hp, after_append]
    exact after_dead ((after_timely setup before).dead_deliver hm) rest
  obtain ⟨k, hk⟩ := hd
  have hl := ((after_timely setup past).live_iff kind timer.serial).mpr ⟨timer, ha, rfl⟩
  have he := congrArg TimerToken.live (Option.some.inj (hk.symm.trans hl))
  exact Bool.false_ne_true he

/-- What the message of an armed timer does goes beyond the log: the timer is dropped. -/
theorem Timely.not_passesOver {s : Session} (h : Timely s) {place : Nat} {kind : TimerKind}
    {timer : Timer} (ha : s.armed? kind = some timer)
    (hm : s.queue[place]? = some (.timer kind timer.serial)) : ¬ s.PassesOver place := by
  rintro ⟨records, hr⟩
  obtain ⟨k, hk⟩ := h.dead_deliver hm
  rw [hr] at hk
  have hl := (h.live_iff kind timer.serial).mpr ⟨timer, ha, rfl⟩
  have he := congrArg TimerToken.live (Option.some.inj (hk.symm.trans hl))
  exact Bool.false_ne_true he

/-- In every run, the tokens that are live are those of the armed timers, of which nothing was handled
yet. The message of a timer does something exactly if that timer is armed: it starts one round, which asks
each server that it is about, and the timer is dropped. That of a timer that was dropped or replaced does
nothing, whenever it is handled. -/
theorem onlyArmedTimer_fires (setup : Setup) (past later : List Action) :
    let s := setup.session.after past
    let u := s.after later
    (∀ kind serial, s.tokens[serial]? = some ⟨kind, true⟩ ↔
      ∃ timer, s.armed? kind = some timer ∧ timer.serial = serial) ∧
    (∀ kind timer, s.armed? kind = some timer →
      ∀ before place rest, past = before ++ .deliver place :: rest →
        (setup.session.after before).queue[place]? ≠ some (.timer kind timer.serial)) ∧
    (s.posts.Nodup ∧ ∀ kind timer, s.armed? kind = some timer → (kind, timer.serial) ∈ s.posts →
      timer.due ≤ s.now) ∧
    (∀ place kind serial, s.queue[place]? = some (.timer kind serial) →
      (¬ s.PassesOver place ↔ ∃ timer, s.armed? kind = some timer ∧ timer.serial = serial)) ∧
    (∀ place scheduled, s.completionTimer = some scheduled →
      s.queue[place]? = some (.timer .completion scheduled.timer.serial) →
        s.deliver place =
          ({ s with queue := s.queue.eraseIdx place } : Session).dropCompletionTimer.startRound
            scheduled.trigger ∧
        (s.deliver place).completionTimer = none ∧ (s.deliver place).lastId = s.lastId.next ∧
        (s.deliver place).asks = s.asks ++ (s.bindings.values.filter (·.completes)).map fun b =>
          (b.server, .completion, s.completionParams scheduled.trigger b)) ∧
    (∀ place scheduled, s.signatureTimer = some scheduled →
      s.queue[place]? = some (.timer .signatureHelp scheduled.timer.serial) →
        s.deliver place =
          ({ s with queue := s.queue.eraseIdx place } : Session).dropSignatureTimer.sendSignatureHelp
            (some scheduled.character) ∧
        (s.deliver place).signatureTimer = none ∧
        (s.deliver place).asks = s.asks ++
          (s.bindings.values.filter (·.isSignatureTrigger scheduled.character)).map fun b =>
            (b.server, .signatureHelp, .ofFields (s.documentPosition b.encoding ++
              [("context", .ofFields [("triggerKind", .int 2),
                ("triggerCharacter", .str scheduled.character.toString),
                ("isRetrigger", .bool false)])]))) ∧
    ∀ serial < s.tokens.length, (∀ kind timer, s.armed? kind = some timer → timer.serial ≠ serial) →
      ∀ place kind, u.queue[place]? = some (.timer kind serial) → u.PassesOver place := by
  intro s u
  have h : Timely s := after_timely setup past
  refine ⟨h.live_iff, fun kind timer ha before place rest hp => armed_unhandled setup hp ha,
    ⟨h.once, fun kind timer ha hp => h.due kind timer ha (h.posted kind timer ha hp)⟩,
    fun place kind serial hm => ⟨fun hn => ?_, ?_⟩, fun place scheduled hs hm => ?_,
    fun place scheduled hs hm => ?_, fun serial hl hn place kind hm => ?_⟩
  · obtain ⟨live, hl⟩ := h.known kind serial (mem_posts.mpr (List.mem_of_getElem? hm))
    cases live with
    | false => exact absurd ((show s.Dead serial from ⟨kind, hl⟩).passesOver hm) hn
    | true => exact (h.live_iff kind serial).mp hl
  · rintro ⟨timer, ha, rfl⟩
    exact h.not_passesOver ha hm
  · have hd := h.deliver_completion hs hm
    refine ⟨hd, ?_, ?_, ?_⟩
    · rw [hd, (startRound_timers ..).1]
      rfl
    · rw [hd, startRound_lastId]
      rfl
    · rw [hd, asks_startRound]
      rfl
  · have hd := h.deliver_signatureHelp hs hm
    refine ⟨hd, ?_, ?_⟩
    · rw [hd, (sendSignatureHelp_timers ..).1]
      rfl
    · rw [hd, asks_sendSignatureHelp]
      rfl
  · exact (after_dead (h.dead hl hn) later).passesOver hm

end Session
end Autocomplete
