import Autocomplete.Proofs.Session.Draining
import Autocomplete.Proofs.Session.Pacing
import Autocomplete.Proofs.Session.Reset

/-! How long timers are armed for. The windows of the settings have an upper bound. The options with
which a server is attached and the time that servers take to answer are held to none, and a delay is
above the bound exactly if one of these makes it so. -/
namespace Autocomplete

/-- Whether the session is told that text was put in or deleted. -/
def Operation.tellsEdit : Operation → Bool
  | .textDeleted => true
  | o => o.isKeystroke

def Action.tellsEdit : Action → Bool
  | .perform o => o.1.tellsEdit
  | .deliver _ => false

/-- The options of a server after an action, as long as it is attached. -/
def Action.optionsOf (server : ServerId) (o : Option AttachOptions) : Action → Option AttachOptions
  | .perform ⟨.attach x _ options, _⟩ => if x = server then some options else o
  | .perform ⟨.detach x, _⟩ => if x = server then none else o
  | _ => o

/-- The options with which a server was attached last, unless it was detached since. -/
def optionsAfter (actions : List Action) (server : ServerId) : Option AttachOptions :=
  actions.foldl (fun o a => a.optionsOf server o) none

namespace Duration

theorem lt_ceilMilliseconds_iff (ms : Nat) (d : Duration) :
    ms < d.ceilMilliseconds ↔ ofMilliseconds ms < d := by
  have h (d : Nat) : ms < (d + 999999) / 1000000 ↔ ms * 1000000 < d := by omega
  exact h d

theorem ofMilliseconds_lt_iff (a b : Nat) : ofMilliseconds a < ofMilliseconds b ↔ a < b :=
  Nat.mul_lt_mul_right (by decide)

theorem ofMilliseconds_lt_sub_iff (ms elapsed : Nat) (d : Duration) :
    ofMilliseconds ms < d - ofMilliseconds elapsed ↔ ofMilliseconds (ms + elapsed) < d := by
  have h (d : Nat) : ms * 1000000 < d - elapsed * 1000000 ↔ (ms + elapsed) * 1000000 < d := by omega
  exact h d

end Duration

namespace Session

theorem lt_longest_iff {ds : List Duration} {d : Duration} (h : longest ds = some d)
    (x : Duration) : x < d ↔ ∃ w ∈ ds, x < w := by
  have fold (ds : List Duration) (d : Duration) :
      x < ds.foldl max d ↔ x < d ∨ ∃ w ∈ ds, x < w := by
    induction ds generalizing d with
    | nil => simp
    | cons w ds ih => simp [ih, or_assoc]
  cases ds with
  | nil => cases h
  | cons w ds =>
    obtain rfl := Option.some.inj h
    rw [fold, List.exists_mem_cons_iff]

theorem longest_eq_none_iff {ds : List Duration} : longest ds = none ↔ ds = [] := by
  cases ds <;> simp [longest]

theorem ArmsNothing.reset (s : Session) (reason : CancelReason) : ArmsNothing s (s.reset reason) where
  tokens := s.reset_tokens_length reason
  armed kind timer h := by
    rw [reset_frame] at h
    cases kind <;> cases h

theorem ArmsNothing.acceptMatch (s : Session) (m : Match) : ArmsNothing s (s.acceptMatch m) := by
  unfold Session.acceptMatch
  have hr := ArmsNothing.reset s .accepted
  have hs := (s.reset .accepted).supersedeResolve_frame
  have hp := (s.reset .accepted).supersedeResolve.prepareExpansion_frame s.expandSnippet m
  generalize (s.reset .accepted).supersedeResolve = u at hs hp
  generalize u.prepareExpansion s.expandSnippet m = result at hp
  obtain ⟨t, expansion⟩ := result
  dsimp only at hp ⊢
  have ht : ArmsNothing s t :=
    hr.trans (.of_eq (by rw [hp, hs]) (by rw [hp, hs]) (by rw [hp, hs]))
  refine ht.trans ?_
  unfold Session.supplyEdits
  split
  next edit edits _ =>
    have hf := t.applyEdits_frame m.server (edit :: edits)
    exact (ArmsNothing.of_eq (by rw [hf]) (by rw [hf]) (by rw [hf])).trans
      (Sends.finishAccept ..).arms
  next =>
    split
    · have hf := t.send_frame m.payload.server .resolve m.payload.item.encode
      unfold Session.sendResolve
      dsimp only
      exact .of_eq (by rw [hf]; rfl) (by rw [hf]; rfl) (by rw [hf]; rfl)
    · exact (Sends.finishAccept ..).arms

theorem ArmsNothing.completeDone (s : Session) (selected : Option Match) :
    ArmsNothing s (s.completeDone selected) := by
  unfold Session.completeDone
  split
  · exact .of_eq rfl rfl rfl
  · split
    · exact .reset ..
    · exact .acceptMatch ..

/-- Timers are only armed when the session is told that text was put in or deleted. -/
theorem act_tokens_length (s : Session) {a : Action} (ha : a.tellsEdit = false) :
    (s.act a).tokens.length = s.tokens.length := by
  cases a with
  | perform o =>
    obtain ⟨o, hd⟩ := o
    change (s.apply o).1.tokens.length = _
    cases o with
    | attach server capabilities options =>
      change (s.attach server capabilities options).tokens.length = _
      rw [attach_frame]
    | detach server =>
      change (s.detach server).tokens.length = _
      rw [detach_frame]
    | backspace =>
      change s.backspace.tokens.length = _
      unfold backspace
      extract_lets line column
      split <;> rfl
    | cursorMoved =>
      change s.cursorMoved.tokens.length = _
      unfold cursorMoved
      split
      · split <;> rfl
      · rfl
    | insertLeave => exact s.reset_tokens_length _
    | triggerCompletion => exact (Sends.triggerCompletion s).arms.tokens
    | triggerSignatureHelp => exact (Sends.triggerSignatureHelp s).arms.tokens
    | acceptPending =>
      change s.acceptPending.1.tokens.length = _
      unfold acceptPending
      split <;> rfl
    | completeDone => exact (ArmsNothing.completeDone s _).tokens
    | registerCommand server command reaction =>
      change (s.registerCommand server command reaction).1.tokens.length = _
      rw [registerCommand_frame]
    | respond target reply =>
      change (s.respond target reply).1.tokens.length = _
      unfold respond
      split
      · rw [answer_frame]
      · rfl
    | typeChar | charInserted | textDeleted => cases ha
    | drain | advance | next => cases hd
    | _ => rfl
  | deliver place =>
    change (s.deliver place).tokens.length = _
    unfold deliver
    split
    next m _ =>
      extract_lets rest
      exact (Sends.handle rest (rest.isLive m) m).arms.tokens
    next => rfl

/-- With which delay a completion timer is armed. -/
inductive CompletionDelay (s : Session) : Trigger → Duration → Prop where
  | leading {c : Char} {delay : Duration}
      (h : longest ((s.bindings.values.filter (·.isTrigger c)).map (·.leading)) = some delay) :
      CompletionDelay s (.character c) delay
  | deletion : CompletionDelay s .deletion s.config.deleteRetrigger
  | subsequent {trigger : Trigger} {last : Nat} (refresh : trigger.isRefresh = true)
      (asked : s.lastRequest = some last) (attached : s.bindings.isEmpty = false) :
      CompletionDelay s trigger (s.subsequentWindow - Duration.ofMilliseconds (s.now - last))

/-- With which delay a signature help timer is armed. -/
def SignatureDelay (s : Session) (c : Char) (delay : Duration) : Prop :=
  longest ((s.bindings.values.filter (·.isSignatureTrigger c)).map (·.leading)) = some delay

inductive ArmsCompletion (s t : Session) : Prop where
  | nothing (tokens : t.tokens.length = s.tokens.length)
      (timer : ∀ d, t.completionTimer = some d → s.completionTimer = some d)
      (signature : t.signatureTimer = s.signatureTimer)
  | timer {d : ScheduledCompletion} {delay : Duration} (reason : s.CompletionDelay d.trigger delay)
      (timer : d.timer = s.newTimer delay) (armed : t.completionTimer = some d)
      (tokens : t.tokens.length = s.tokens.length + 1)
      (signature : t.signatureTimer = s.signatureTimer)

theorem ArmsCompletion.refl (s : Session) : ArmsCompletion s s := .nothing rfl (fun _ => id) rfl

/-- The timer that was armed before is dropped either way. -/
theorem ArmsCompletion.arm (s : Session) {delay : Duration} {trigger : Trigger} (phase : Phase)
    (h : s.CompletionDelay trigger delay) :
    ArmsCompletion s (s.armCompletion delay trigger phase) :=
  .timer h rfl rfl (by simp [armCompletion, log, tokensWithout_length]) rfl

theorem ArmsCompletion.rearm (s : Session) {delay : Duration} {trigger : Trigger} (phase : Phase)
    (h : s.CompletionDelay trigger delay) :
    ArmsCompletion s (s.dropCompletionTimer.armCompletion delay trigger phase) := by
  refine .timer h ?_ rfl ?_ rfl
  · simp [newTimer, dropCompletionTimer, log, tokensWithout_length]
  · simp [armCompletion, dropCompletionTimer, log, tokensWithout_length]

theorem scheduleSubsequent_arms (s : Session) {trigger : Trigger}
    (ht : trigger.isRefresh = true) (hb : s.bindings.isEmpty = false) :
    ArmsCompletion s (s.scheduleSubsequent trigger) := by
  by_cases hw : s.WindowOver
  · rw [scheduleSubsequent_over hw]
    have hf := s.dropCompletionTimer.startRound_timers trigger
    have hs : (s.dropCompletionTimer.startRound trigger).signatureTimer = s.signatureTimer := by
      unfold startRound
      rw [openRound_frame, giveUpRound_frame]
      rfl
    refine .nothing ?_ (fun d hd => ?_) hs
    · rw [hf.2]
      exact s.tokensWithout_length _
    · rw [hf.1] at hd
      cases hd
  · obtain ⟨last, hl, hrun⟩ : ∃ last, s.lastRequest = some last ∧
        Duration.ofMilliseconds (s.now - last) < s.subsequentWindow := by
      simpa only [WindowOver, not_forall, Nat.not_le, exists_prop] using hw
    rw [scheduleSubsequent_running hl hrun]
    exact .rearm s .subsequent (.subsequent ht hl hb)

theorem respondToTyping_arms (s : Session) (c : Char) : ArmsCompletion s (s.respondToTyping c) := by
  unfold respondToTyping
  split
  · exact .refl s
  next hb =>
    have hb : s.bindings.isEmpty = false := Bool.eq_false_iff.mpr hb
    split
    · unfold refreshVisible
      split
      · exact scheduleSubsequent_arms s rfl hb
      · split
        · exact scheduleSubsequent_arms s rfl hb
        · exact .refl s
    · unfold scheduleLeading
      split
      · exact .refl s
      next delay hd =>
        split
        · exact .nothing rfl (fun _ => id) rfl
        · exact .arm s .leading (.leading hd)

theorem textDeleted_arms (s : Session) : ArmsCompletion s s.textDeleted := by
  unfold textDeleted
  split
  · exact .refl s
  · extract_lets cursor qualifies
    split
    · exact .rearm s .leading .deletion
    · exact .nothing rfl (fun _ => id) rfl

theorem Prelude.completionDelay {s u : Session} (h : Prelude s u) {trigger : Trigger}
    {delay : Duration} (hd : u.CompletionDelay trigger delay) : s.CompletionDelay trigger delay := by
  have hf := h.frame
  generalize u.buffer = buffer, u.signatureTimer = timer, u.tokens = tokens, u.trace = trace at hf
  subst hf
  cases hd with
  | leading h => exact .leading h
  | deletion => exact .deletion
  | subsequent refresh asked attached => exact .subsequent refresh asked attached

/-- Timers may be armed from one state to the next. Those that are stay armed, and these are their
delays. -/
structure Arms (s t : Session) : Prop where
  kept : ∀ serial, s.tokens.length ≤ serial → serial < t.tokens.length →
    ∃ kind timer, t.armed? kind = some timer ∧ timer.serial = serial
  completion : ∀ d, t.completionTimer = some d → s.tokens.length ≤ d.timer.serial →
    ∃ delay, s.CompletionDelay d.trigger delay ∧ d.timer.due = s.now + delay.ceilMilliseconds
  signature : ∀ h, t.signatureTimer = some h → s.tokens.length ≤ h.timer.serial →
    ∃ delay, s.SignatureDelay h.character delay ∧ h.timer.due = s.now + delay.ceilMilliseconds

namespace Arms

variable {s t u : Session}

theorem of_tokens (ht : Timely t) (h : t.tokens.length = s.tokens.length) : Arms s t where
  kept serial hl hr := absurd hr (by omega)
  completion d hd hl := by
    have ha : t.armed? .completion = some d.timer := by rw [armed?, hd, Option.map_some]
    have := ht.serial_lt ha
    omega
  signature d hd hl := by
    have ha : t.armed? .signatureHelp = some d.timer := by rw [armed?, hd, Option.map_some]
    have := ht.serial_lt ha
    omega

/-- A timer for signature help is armed before one for completion. -/
theorem followed (hs : Timely s) (hp : Prelude s u) (h : Arms s u) (k : ArmsCompletion u t) :
    Arms s t := by
  have hc : u.completionTimer = s.completionTimer := by rw [hp.frame]
  have hnow : u.now = s.now := by rw [hp.frame]
  have earlier (serial : Nat) (hl : s.tokens.length ≤ serial) (hr : serial < u.tokens.length) :
      ∃ timer, u.armed? .signatureHelp = some timer ∧ timer.serial = serial := by
    obtain ⟨kind, timer, ha, rfl⟩ := h.kept serial hl hr
    cases kind with
    | completion =>
      have hold : s.armed? .completion = some timer := by rw [armed?, ← hc]; exact ha
      have := hs.serial_lt hold
      omega
    | signatureHelp => exact ⟨timer, ha, rfl⟩
  cases k with
  | nothing tokens timer signature =>
    refine ⟨fun serial hl hr => ?_, fun d hd => h.completion d (timer d hd), ?_⟩
    · obtain ⟨timer, ha, he⟩ := earlier serial hl (by omega)
      exact ⟨.signatureHelp, timer, by rw [armed?, signature]; exact ha, he⟩
    · rw [signature]
      exact h.signature
  | @timer d delay reason timer armed tokens signature =>
    refine ⟨fun serial hl hr => ?_, fun e he hl => ?_, ?_⟩
    · rcases Nat.lt_or_ge serial u.tokens.length with hlt | hge
      · obtain ⟨timer, ha, he⟩ := earlier serial hl hlt
        exact ⟨.signatureHelp, timer, by rw [armed?, signature]; exact ha, he⟩
      · refine ⟨.completion, d.timer, by rw [armed?, armed, Option.map_some], ?_⟩
        rw [timer]
        change u.tokens.length = serial
        omega
    · obtain rfl := Option.some.inj (armed.symm.trans he)
      refine ⟨delay, hp.completionDelay reason, ?_⟩
      rw [timer, ← hnow]
      rfl
    · rw [signature]
      exact h.signature

theorem scheduleSignatureHelp (hs : Timely s) (c : Char) :
    Arms s (s.scheduleSignatureHelp c) := by
  unfold Session.scheduleSignatureHelp
  split
  · split
    next delay hd =>
      have htokens : (s.armSignatureHelp delay c).tokens.length = s.tokens.length + 1 := by
        simp [armSignatureHelp, log, tokensWithout_length]
      refine ⟨fun serial hl hr => ?_, fun d hc hl => ?_, fun h hh hl => ?_⟩
      · refine ⟨.signatureHelp, s.newTimer delay, rfl, ?_⟩
        change s.tokens.length = serial
        omega
      · have hold : s.armed? .completion = some d.timer := by
          rw [armed?, show s.completionTimer = some d from hc, Option.map_some]
        have := hs.serial_lt hold
        omega
      · obtain rfl := Option.some.inj hh
        exact ⟨delay, hd, rfl⟩
    · exact .of_tokens hs rfl
  · exact .of_tokens hs rfl

theorem charInserted (hs : Timely s) (c : Char) : Arms s (s.charInserted c) := by
  unfold Session.charInserted
  split
  · exact .of_tokens hs rfl
  next hb =>
    extract_lets u
    have hu : Prelude s u ∧ Arms s u := by
      dsimp only [u]
      split
      · exact ⟨scheduleSignatureHelp_prelude s c, scheduleSignatureHelp hs c⟩
      · exact ⟨⟨rfl, .of_eq rfl⟩, .of_tokens hs rfl⟩
    have hbindings : u.bindings.isEmpty = false := by
      rw [hu.1.frame]
      exact Bool.eq_false_iff.mpr hb
    have hr := respondToTyping_arms u c
    rw [respondToTyping, if_neg (by simp [hbindings])] at hr
    exact followed hs hu.1 hu.2 hr

theorem typeChar (hs : Timely s) (c : Char) : Arms s ((s.insertText [c]).charInserted c) := by
  have hc := Change.edit s .user s.buffer.cursor s.buffer.cursor [c] rfl
  have h := charInserted (hc.timerStep.timely hs) c
  have hp : Prelude s (s.insertText [c]) := ⟨rfl, .one rfl rfl⟩
  refine ⟨h.kept, fun d hd hl => ?_, h.signature⟩
  obtain ⟨delay, hr, hdue⟩ := h.completion d hd hl
  exact ⟨delay, hp.completionDelay hr, hdue⟩

theorem textDeleted (hs : Timely s) : Arms s s.textDeleted :=
  followed hs ⟨rfl, .of_eq rfl⟩ (.of_tokens hs rfl) (textDeleted_arms s)

theorem act (hs : Timely s) (a : Action) : Arms s (s.act a) := by
  have others (ha : a.tellsEdit = false) : Arms s (s.act a) :=
    have ht : Timely (s.act a) := after_induction (fun _ _ hc h => hc.timerStep.timely h)
      (fun _ _ hc h => hc.timerStep.timely h) (fun _ _ hc h => hc.timerStep.timely h) hs [a]
    .of_tokens ht (s.act_tokens_length ha)
  cases a with
  | perform o =>
    obtain ⟨o, ho⟩ := o
    cases o with
    | typeChar c => exact typeChar hs c
    | charInserted c => exact charInserted hs c
    | textDeleted => exact textDeleted hs
    | _ => exact others rfl
  | deliver place => exact others rfl

end Arms
/-- A server is attached if and only if there are options, and its windows are those of the options. -/
def PacedBy (s : Session) (server : ServerId) (o : Option AttachOptions) : Prop :=
  (s.bindings.find? server).map (fun b => (b.leading, b.subsequent)) =
    o.map fun o => (o.leading s.config, o.subsequent s.config)

theorem Change.config_eq {s t : Session} (h : Change s t) : t.config = s.config := by
  cases h with
  | report => rw [report_frame]
  | registerCommand => rw [registerCommand_frame]
  | giveUpRound => rw [giveUpRound_frame]
  | openRound => rw [openRound_frame]
  | cancelSignatureRound => rw [cancelSignatureRound_frame]
  | openSignatureRound => rw [openSignatureRound_frame]
  | takeSignature => rw [takeSignature_frame]
  | sendCommand => rw [send_frame]
  | answer => rw [answer_frame]
  | _ => rfl

theorem TextChange.config_eq {s t : Session} (h : TextChange s t) : t.config = s.config := by
  rw [h.frame]

theorem RoundChange.config_eq {s t : Session} (h : RoundChange s t) : t.config = s.config := by
  cases h with
  | attach => rw [attach_frame]
  | detach => rw [detach_frame]
  | takeCompletion => rw [takeCompletion_frame]

theorem after_config (s : Session) (actions : List Action) : (s.after actions).config = s.config :=
  after_induction (P := fun t => t.config = s.config) (fun _ _ hc h => hc.config_eq.trans h)
    (fun _ _ hc h => hc.config_eq.trans h) (fun _ _ hc h => hc.config_eq.trans h) rfl actions

theorem Change.pacedBy {s t : Session} (hc : Change s t) {server : ServerId}
    {o : Option AttachOptions} (h : s.PacedBy server o) : t.PacedBy server o := by
  unfold PacedBy at h ⊢
  rw [hc.config_eq, ← h]
  rcases hc.bindings_cases with he | ⟨x, b, commands, hb, he⟩
  · rw [he]
  · rw [he, Table.find?_insert]
    split
    next hx => rw [← hx, hb]; rfl
    next => rfl

theorem TextChange.pacedBy {s t : Session} (hc : TextChange s t) {server : ServerId}
    {o : Option AttachOptions} (h : s.PacedBy server o) : t.PacedBy server o := by
  unfold PacedBy
  rw [hc.config_eq, hc.bindings_eq]
  exact h

theorem Evolves.pacedBy {s t : Session} (h : Evolves s t) {server : ServerId}
    {o : Option AttachOptions} (hs : s.PacedBy server o) : t.PacedBy server o :=
  Evolves.keeps (fun _ _ hc h => hc.pacedBy h) (fun _ _ hc h => hc.pacedBy h) h hs

theorem detach_pacedBy {s : Session} {server : ServerId} {o : Option AttachOptions}
    (h : s.PacedBy server o) (x : ServerId) :
    (s.detach x).PacedBy server (if x = server then none else o) := by
  have hb : (s.detach x).bindings = s.bindings.erase x := by
    unfold detach
    split
    · rw [detachFromRound_frame, detachFromSignature_frame]
      rfl
    next hx =>
      rw [Table.erase_eq_self]
      simpa [Table.contains] using hx
  unfold PacedBy
  rw [hb, Table.find?_erase]
  split
  · rfl
  · rw [detach_frame]
    exact h

theorem act_pacedBy {s : Session} {server : ServerId} {o : Option AttachOptions}
    (h : s.PacedBy server o) (a : Action) : (s.act a).PacedBy server (a.optionsOf server o) := by
  cases a with
  | perform p =>
    obtain ⟨p, hp⟩ := p
    cases p with
    | attach x capabilities options =>
      change (s.attach x capabilities options).PacedBy server (if x = server then _ else o)
      unfold PacedBy
      rw [attach_frame, Table.find?_insert]
      split
      · rfl
      · exact h
    | detach x => exact detach_pacedBy h x
    | completeDone selection => exact Evolves.pacedBy (completeDone_evolves s _) h
    | _ =>
      rcases perform_cases s ⟨_, hp⟩ with hq | ⟨_, _, _, ho⟩ | ⟨_, ho⟩ | ⟨_, ho⟩
      · exact Evolves.pacedBy (Quiet.evolves hq) h
      all_goals cases ho
  | deliver place =>
    change (s.deliver place).PacedBy server o
    rcases deliver_cases s place with hq | ⟨_, _, _, _, _, _, hd⟩ | ⟨_, _, _, hm, live, hd⟩
    · exact Evolves.pacedBy (Quiet.evolves hq) h
    · rw [hd, takeCompletion_frame]
      exact h
    · rw [hd]
      exact Evolves.pacedBy (takeResolved_evolves hm live) h

theorem after_pacedBy (setup : Setup) (actions : List Action) (server : ServerId) :
    (setup.session.after actions).PacedBy server (optionsAfter actions server) := by
  have step {s : Session} {o : Option AttachOptions} (h : s.PacedBy server o) :
      (s.after actions).PacedBy server (actions.foldl (fun o a => a.optionsOf server o) o) := by
    induction actions generalizing s o with
    | nil => exact h
    | cons a actions ih => exact ih (act_pacedBy h a)
  exact step rfl

section
variable {s : Session} {server : ServerId} {options : ServerId → Option AttachOptions}

theorem PacedBy.given {o : Option AttachOptions} (h : s.PacedBy server o) {b : Binding}
    (hb : s.bindings.find? server = some b) :
    ∃ p, o = some p ∧ b.leading = p.leading s.config ∧ b.subsequent = p.subsequent s.config := by
  rw [PacedBy, hb, Option.map_some] at h
  obtain ⟨p, rfl, hp⟩ := Option.map_eq_some_iff.mp h.symm
  obtain ⟨hl, hs⟩ := Prod.mk.inj hp
  exact ⟨p, rfl, hl.symm, hs.symm⟩

theorem PacedBy.binding {p : AttachOptions} (h : s.PacedBy server (some p)) :
    ∃ b, s.bindings.find? server = some b ∧ b.leading = p.leading s.config ∧
      b.subsequent = p.subsequent s.config := by
  obtain ⟨b, hb, hp⟩ := Option.map_eq_some_iff.mp h
  obtain ⟨hl, hs⟩ := Prod.mk.inj hp
  exact ⟨b, hb, hl, hs⟩

theorem lt_leading_iff {c : Config} {n : Nat} (hc : c.leadingMs ≤ n) (o : AttachOptions) :
    Duration.ofMilliseconds n < o.leading c ↔ ∃ ms, o.leadingMs = some ms ∧ n < ms := by
  rw [AttachOptions.leading, Duration.ofMilliseconds_lt_iff]
  cases o.leadingMs with
  | none => simpa using hc
  | some ms => simp

theorem subsequent_eq_none_iff (c : Config) (o : AttachOptions) :
    o.subsequent c = none ↔ o.subsequentMs = none ∧ c.subsequentMs = none := by
  rw [AttachOptions.subsequent, Option.map_eq_none_iff]
  cases o.subsequentMs with
  | none => exact ⟨fun h => ⟨rfl, h⟩, fun h => h.2⟩
  | some => exact ⟨nofun, fun h => nomatch h.1⟩

theorem lt_subsequent_iff {c : Config} {n : Nat} (hc : ∀ ms, c.subsequentMs = some ms → ms ≤ n)
    (o : AttachOptions) : (∃ w, o.subsequent c = some w ∧ Duration.ofMilliseconds n < w) ↔
      ∃ ms, o.subsequentMs = some ms ∧ n < ms := by
  rw [AttachOptions.subsequent]
  cases o.subsequentMs with
  | none =>
    refine ⟨fun ⟨w, hw, hn⟩ => ?_, fun ⟨ms, hms, _⟩ => nomatch hms⟩
    obtain ⟨ms, hms, rfl⟩ := Option.map_eq_some_iff.mp hw
    have hle : ms ≤ n := hc ms hms
    exact absurd ((Duration.ofMilliseconds_lt_iff ..).mp hn) (Nat.not_lt.mpr hle)
  | some ms =>
    refine ⟨fun ⟨w, hw, hn⟩ => ⟨ms, rfl, ?_⟩, fun ⟨m, hm, hn⟩ => ⟨_, rfl, ?_⟩⟩
    · obtain rfl : Duration.ofMilliseconds ms = w := Option.some.inj hw
      exact (Duration.ofMilliseconds_lt_iff ..).mp hn
    · obtain rfl := Option.some.inj hm
      exact (Duration.ofMilliseconds_lt_iff ..).mpr hn

theorem lt_longestLeading_iff (hp : ∀ server, s.PacedBy server (options server)) {n : Nat}
    (hc : s.config.leadingMs ≤ n) {p : Binding → Bool} {delay : Duration}
    (hd : longest ((s.bindings.values.filter p).map (·.leading)) = some delay) :
    Duration.ofMilliseconds n < delay ↔ ∃ server b o ms, s.bindings.find? server = some b ∧
      p b = true ∧ options server = some o ∧ o.leadingMs = some ms ∧ n < ms := by
  rw [lt_longest_iff hd]
  constructor
  · rintro ⟨w, hw, hn⟩
    obtain ⟨b, hb, rfl⟩ := List.mem_map.mp hw
    obtain ⟨hb, hpb⟩ := List.mem_filter.mp hb
    obtain ⟨server, hb⟩ := (Table.mem_values_iff ..).mp hb
    obtain ⟨o, ho, hl, -⟩ := (hp server).given hb
    obtain ⟨ms, hms, hlt⟩ := (lt_leading_iff hc o).mp (hl ▸ hn)
    exact ⟨server, b, o, ms, hb, hpb, ho, hms, hlt⟩
  · rintro ⟨server, b, o, ms, hb, hpb, ho, hms, hlt⟩
    obtain ⟨q, hq, hl, -⟩ := (hp server).given hb
    obtain rfl := Option.some.inj (ho.symm.trans hq)
    exact ⟨b.leading, List.mem_map.mpr ⟨b, List.mem_filter.mpr
      ⟨(Table.mem_values_iff ..).mpr ⟨server, hb⟩, hpb⟩, rfl⟩,
      hl ▸ (lt_leading_iff hc o).mpr ⟨ms, hms, hlt⟩⟩

/-- No window between requests is set, neither in the settings nor for an attached server. -/
def Unset (s : Session) (options : ServerId → Option AttachOptions) : Prop :=
  s.config.subsequentMs = none ∧ ∀ server o, options server = some o → o.subsequentMs = none

/-- Why the window between requests is longer than a number of milliseconds. -/
inductive Wide (s : Session) (options : ServerId → Option AttachOptions) (n : Nat) : Prop where
  | option {server : ServerId} {o : AttachOptions} {ms : Nat} (given : options server = some o)
      (window : o.subsequentMs = some ms) (exceeds : n < ms)
  | latency {window : Duration} (unset : s.Unset options) (estimate : s.latency.estimate = some window)
      (exceeds : Duration.ofMilliseconds n < window)
  | leadingOption {server : ServerId} {o : AttachOptions} {ms : Nat} (unset : s.Unset options)
      (unknown : s.latency.estimate = none) (given : options server = some o)
      (window : o.leadingMs = some ms) (exceeds : n < ms)

theorem exists_binding (hb : s.bindings.isEmpty = false) :
    ∃ server b, s.bindings.find? server = some b := by
  obtain ⟨b, hm⟩ : ∃ b, b ∈ s.bindings.values := by
    apply List.exists_mem_of_ne_nil
    intro hn
    rw [Table.isEmpty, List.map_eq_nil_iff.mp hn] at hb
    cases hb
  obtain ⟨server, h⟩ := (Table.mem_values_iff ..).mp hm
  exact ⟨server, b, h⟩

theorem unset_of_longest (hp : ∀ server, s.PacedBy server (options server))
    (hb : s.bindings.isEmpty = false)
    (hl : longest (s.bindings.values.filterMap (·.subsequent)) = none) : s.Unset options := by
  rw [longest_eq_none_iff, List.filterMap_eq_nil_iff] at hl
  have none_of {server : ServerId} {b : Binding} (h : s.bindings.find? server = some b) :
      b.subsequent = none := hl b ((Table.mem_values_iff ..).mpr ⟨server, h⟩)
  constructor
  · obtain ⟨server, b, h⟩ := exists_binding hb
    obtain ⟨o, -, -, hs⟩ := (hp server).given h
    exact ((subsequent_eq_none_iff ..).mp (hs.symm.trans (none_of h))).2
  · intro server o ho
    obtain ⟨b, h, -, hs⟩ := PacedBy.binding (ho ▸ hp server)
    exact ((subsequent_eq_none_iff ..).mp (hs.symm.trans (none_of h))).1

theorem Unset.longest (hu : s.Unset options) (hp : ∀ server, s.PacedBy server (options server)) :
    longest (s.bindings.values.filterMap (·.subsequent)) = none := by
  rw [longest_eq_none_iff, List.filterMap_eq_nil_iff]
  intro b hb
  obtain ⟨server, h⟩ := (Table.mem_values_iff ..).mp hb
  obtain ⟨o, ho, -, hs⟩ := (hp server).given h
  rw [hs, subsequent_eq_none_iff]
  exact ⟨hu.2 server o ho, hu.1⟩

theorem lt_subsequentWindow_iff (hp : ∀ server, s.PacedBy server (options server))
    (hb : s.bindings.isEmpty = false) {n : Nat} (hleading : s.config.leadingMs ≤ n)
    (hsubsequent : ∀ ms, s.config.subsequentMs = some ms → ms ≤ n) :
    Duration.ofMilliseconds n < s.subsequentWindow ↔ s.Wide options n := by
  unfold subsequentWindow
  cases hl : Session.longest (s.bindings.values.filterMap (·.subsequent)) with
  | some window =>
    have hset : ¬ s.Unset options := fun hu => by
      rw [hu.longest hp] at hl
      cases hl
    dsimp only
    rw [lt_longest_iff hl]
    constructor
    · rintro ⟨w, hw, hn⟩
      obtain ⟨b, hbw, hsub⟩ := List.mem_filterMap.mp hw
      obtain ⟨server, h⟩ := (Table.mem_values_iff ..).mp hbw
      obtain ⟨o, ho, -, hs⟩ := (hp server).given h
      obtain ⟨ms, hms, hlt⟩ := (lt_subsequent_iff hsubsequent o).mp ⟨w, hs ▸ hsub, hn⟩
      exact .option ho hms hlt
    · intro hw
      cases hw with
      | @option server o ms given window exceeds =>
        obtain ⟨w, hw, hn⟩ := (lt_subsequent_iff hsubsequent o).mpr ⟨ms, window, exceeds⟩
        obtain ⟨b, h, -, hs⟩ := PacedBy.binding (given ▸ hp server)
        exact ⟨w, List.mem_filterMap.mpr ⟨b, (Table.mem_values_iff ..).mpr ⟨server, h⟩,
          hs.trans hw⟩, hn⟩
      | latency unset => exact absurd unset hset
      | leadingOption unset => exact absurd unset hset
  | none =>
    have hu := unset_of_longest hp hb hl
    have hnone {server : ServerId} {o : AttachOptions} {ms : Nat} (given : options server = some o)
        (window : o.subsequentMs = some ms) : False := by
      rw [hu.2 server o given] at window
      cases window
    dsimp only
    cases he : s.latency.estimate with
    | some w =>
      refine ⟨fun hn => .latency hu he hn, fun hw => ?_⟩
      cases hw with
      | option given window => exact (hnone given window).elim
      | latency _ estimate exceeds => exact Option.some.inj (he.symm.trans estimate) ▸ exceeds
      | leadingOption _ unknown => cases he.symm.trans unknown
    | none =>
      obtain ⟨delay, hd⟩ : ∃ delay,
          Session.longest (s.bindings.values.map (·.leading)) = some delay := by
        obtain ⟨server, b, h⟩ := exists_binding hb
        refine Option.ne_none_iff_exists'.mp fun hn => ?_
        rw [longest_eq_none_iff, List.map_eq_nil_iff] at hn
        have hm := (Table.mem_values_iff ..).mpr ⟨server, h⟩
        rw [hn] at hm
        cases hm
      have hiff := lt_longestLeading_iff hp hleading (p := fun _ => true)
        (by rw [List.filter_true]; exact hd)
      dsimp only
      rw [hd, Option.getD_some, hiff]
      constructor
      · rintro ⟨server, b, o, ms, -, -, ho, hms, hlt⟩
        exact .leadingOption hu he ho hms hlt
      · intro hw
        cases hw with
        | option given window => exact (hnone given window).elim
        | latency _ estimate => cases he.symm.trans estimate
        | @leadingOption server o ms _ _ given window exceeds =>
          obtain ⟨b, h, -, -⟩ := PacedBy.binding (given ▸ hp server)
          exact ⟨server, b, o, ms, h, rfl, given, window, exceeds⟩

/-- Why the delay of a completion timer is above the bound. -/
inductive Overlong (s : Session) (options : ServerId → Option AttachOptions) : Trigger → Prop where
  | leading {c : Char} {server : ServerId} {b : Binding} {o : AttachOptions} {ms : Nat}
      (attached : s.bindings.find? server = some b) (trigger : b.isTrigger c = true)
      (given : options server = some o) (window : o.leadingMs = some ms) (exceeds : maxWindowMs < ms) :
      Overlong s options (.character c)
  | subsequent {trigger : Trigger} {last : Nat} (refresh : trigger.isRefresh = true)
      (asked : s.lastRequest = some last)
      (wide : s.Wide options (maxWindowMs + (s.now - last))) : Overlong s options trigger

theorem CompletionDelay.overlong_iff (hp : ∀ server, s.PacedBy server (options server))
    (hc : s.config.validate = .ok ()) {trigger : Trigger} {delay : Duration}
    (h : s.CompletionDelay trigger delay) :
    maxWindowMs < delay.ceilMilliseconds ↔ s.Overlong options trigger := by
  obtain ⟨hleading, hsubsequent, hdelete⟩ := (Config.validate_eq_ok_iff _).mp hc
  rw [Duration.lt_ceilMilliseconds_iff]
  cases h with
  | leading hl =>
    rw [lt_longestLeading_iff hp hleading hl]
    constructor
    · rintro ⟨server, b, o, ms, hb, ht, ho, hms, hlt⟩
      exact .leading hb ht ho hms hlt
    · intro ho
      cases ho with
      | leading attached trigger given window exceeds =>
        exact ⟨_, _, _, _, attached, trigger, given, window, exceeds⟩
      | subsequent refresh => cases refresh
  | deletion =>
    refine ⟨fun hlt => ?_, fun ho => ?_⟩
    · exact absurd ((Duration.ofMilliseconds_lt_iff ..).mp hlt) (Nat.not_lt.mpr hdelete)
    · cases ho with
      | subsequent refresh => cases refresh
  | @subsequent _ last refresh asked attached =>
    rw [Duration.ofMilliseconds_lt_sub_iff, lt_subsequentWindow_iff hp attached
      (hleading.trans (Nat.le_add_right ..)) fun ms hms =>
        (hsubsequent ms hms).trans (Nat.le_add_right ..)]
    refine ⟨fun hw => .subsequent refresh asked hw, fun ho => ?_⟩
    cases ho with
    | leading => cases refresh
    | @subsequent _ other _ again wide =>
      obtain rfl := Option.some.inj (asked.symm.trans again)
      exact wide

end

/-- With settings that pass their check, in every run: whatever timers an action arms stay armed with
it. The delay of one for signature help is above the bound exactly if one of the servers that it is for
was attached with such a window. That of one for completion is above the bound exactly if this is so,
or if the window between requests is longer by what has passed of it: the one that a server was attached
with, or else the time that servers take to answer. -/
theorem delay_aboveBound_iff (setup : Setup) (hc : setup.config.validate = .ok ())
    (past : List Action) (a : Action) :
    let s := setup.session.after past
    let t := s.act a
    let options := optionsAfter past
    (∀ serial, s.tokens.length ≤ serial → serial < t.tokens.length →
      ∃ kind timer, t.armed? kind = some timer ∧ timer.serial = serial) ∧
    (∀ h, t.signatureTimer = some h → s.tokens.length ≤ h.timer.serial →
      (s.now + maxWindowMs < h.timer.due ↔ ∃ server b o ms, s.bindings.find? server = some b ∧
        b.isSignatureTrigger h.character = true ∧ options server = some o ∧
        o.leadingMs = some ms ∧ maxWindowMs < ms)) ∧
    ∀ d, t.completionTimer = some d → s.tokens.length ≤ d.timer.serial →
      (s.now + maxWindowMs < d.timer.due ↔ s.Overlong options d.trigger) := by
  intro s t options
  have hp : ∀ server, s.PacedBy server (options server) := after_pacedBy setup past
  have hconfig : s.config.validate = .ok () := by rw [after_config]; exact hc
  have harms : Arms s t := .act (after_timely setup past) a
  refine ⟨harms.kept, fun h hh hl => ?_, fun d hd hl => ?_⟩
  · obtain ⟨delay, hdelay, hdue⟩ := harms.signature h hh hl
    rw [hdue, Nat.add_lt_add_iff_left, Duration.lt_ceilMilliseconds_iff]
    exact lt_longestLeading_iff hp ((Config.validate_eq_ok_iff _).mp hconfig).1 hdelay
  · obtain ⟨delay, hdelay, hdue⟩ := harms.completion d hd hl
    rw [hdue, Nat.add_lt_add_iff_left]
    exact hdelay.overlong_iff hp hconfig

/-- A server is attached with a window of five seconds before the first request. -/
def slowServer : Setup × List Action :=
  ({ config := {}, uri := "file:///a", lines := [[]], cursor := ⟨0, 0⟩, missing := [],
     signatureView := true, snippets := [], matcher := ⟨fun _ _ => true⟩, commands := none,
     cancellable := true },
   [.attach ⟨1⟩ { completion := some { triggerCharacters := ["."] } } { leadingMs := some 5000 }])

/-- The timer that its trigger character arms is due after five seconds. -/
theorem delay_aboveBound_iff_slowServer :
    slowServer.1.config.validate = .ok () ∧
    let s := slowServer.1.session.after slowServer.2
    ∃ d, (s.act (.typeChar '.')).completionTimer = some d ∧ d.timer.due = s.now + 5000 ∧
      s.Overlong (optionsAfter slowServer.2) d.trigger := by
  have hvalid : slowServer.1.config.validate = .ok () := by rfl
  refine ⟨hvalid, ?_⟩
  intro s
  refine ⟨⟨⟨0, 5000, false⟩, .character '.', .leading⟩, rfl, rfl, ?_⟩
  obtain ⟨_, _, hcompletion⟩ :=
    delay_aboveBound_iff slowServer.1 hvalid slowServer.2 (.typeChar '.')
  exact (hcompletion _ rfl (by decide)).mp (by decide)

end Session
end Autocomplete
