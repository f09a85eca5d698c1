import Autocomplete.Event

/-! The protocol of the published events. Each round is opened once, with a number above those of all
rounds before it. It is over when it is given up, or when its results are shown after the failures of
some of its servers, and then nothing more is published about it. -/
namespace Autocomplete

namespace Event

/-- The round that is opened. -/
def opens? : Event → Option RequestId
  | .requested id .. => some id
  | _ => none

/-- The round that is over. -/
def ends? : Event → Option RequestId
  | .cancelled id _ => some id
  | .resultsShown id .. => some id
  | _ => none

theorem requestId?_of_opens? {e : Event} {id : RequestId} (h : e.opens? = some id) :
    e.requestId? = some id := by
  cases e with
  | requested => exact h
  | _ => cases h

theorem requestId?_of_ends? {e : Event} {id : RequestId} (h : e.ends? = some id) :
    e.requestId? = some id := by
  cases e with
  | cancelled => exact h
  | resultsShown => exact h
  | _ => cases h

end Event

/-- A round was opened for some servers and is not over. -/
structure Running (past : List Event) (id : RequestId) (servers : List ServerId) : Prop where
  opened : ∃ trigger cursor, .requested id trigger cursor servers ∈ past
  lasting : ∀ e ∈ past, e.ends? ≠ some id

/-- What may be published after other events. -/
def Follows (past : List Event) : Event → Prop
  | .requested id _ _ servers =>
    (∀ e ∈ past, ∀ i, e.requestId? = some i → i.toNat < id.toNat) ∧
      servers ≠ [] ∧ servers.Pairwise (· < ·)
  | .cancelled id _ =>
    (∃ servers, Running past id servers) ∧ ∀ server error, .requestFailed id server error ∉ past
  | .requestFailed id server _ =>
    (∃ servers, Running past id servers ∧ server ∈ servers) ∧
      ∀ error, .requestFailed id server error ∉ past
  | .resultsShown id .. => ∃ servers, Running past id servers
  | .itemAccepted .. => True
  | .signatureHelpShown .. => True

inductive Protocol : List Event → Prop where
  | nil : Protocol []
  | snoc {es : List Event} {e : Event} (h : Protocol es) (he : Follows es e) : Protocol (es ++ [e])

theorem Follows.running {past : List Event} {e : Event} {id : RequestId} (h : Follows past e)
    (hi : e.requestId? = some id) (ho : e.opens? = none) : ∃ servers, Running past id servers := by
  cases e with
  | requested => cases ho
  | cancelled =>
    obtain rfl := Option.some.inj hi
    exact h.1
  | resultsShown =>
    obtain rfl := Option.some.inj hi
    exact h
  | requestFailed =>
    obtain rfl := Option.some.inj hi
    obtain ⟨⟨servers, hr, _⟩, _⟩ := h
    exact ⟨servers, hr⟩
  | itemAccepted => cases hi
  | signatureHelpShown => cases hi

theorem Follows.fresh {past : List Event} {e : Event} {id : RequestId} (h : Follows past e)
    (ho : e.opens? = some id) : ∀ d ∈ past, ∀ i, d.requestId? = some i → i.toNat < id.toNat := by
  cases e with
  | requested =>
    obtain rfl := Option.some.inj ho
    exact h.1
  | _ => cases ho

theorem Follows.of_quiet {past : List Event} {e : Event} (h : e.requestId? = none) :
    Follows past e := by
  cases e with
  | itemAccepted => trivial
  | signatureHelpShown => trivial
  | _ => cases h

namespace Protocol

variable {es before after : List Event} {e : Event} {id : RequestId}

theorem follows (h : Protocol es) (he : es = before ++ e :: after) : Follows before e := by
  -- Events are added at the end, so either this is the last one, or what is added comes after it.
  induction h generalizing after with
  | nil => exact absurd he.symm (List.append_ne_nil_of_right_ne_nil _ (List.cons_ne_nil _ _))
  | snoc hp hd ih =>
    rcases List.eq_nil_or_concat after with rfl | ⟨rest, last, rfl⟩
    · obtain ⟨rfl, hl⟩ := List.append_inj' he rfl
      obtain rfl := List.singleton_inj.mp hl
      exact hd
    · rw [List.concat_eq_append, ← List.cons_append, ← List.append_assoc] at he
      exact ih (List.append_inj' he rfl).1

/-- Whatever is published later follows a past that holds the event. -/
theorem follows_later (h : Protocol es) (he : es = before ++ e :: after) {d : Event}
    (hd : d ∈ after) : ∃ past, e ∈ past ∧ Follows past d := by
  obtain ⟨a, b, rfl⟩ := List.append_of_mem hd
  have hsplit : es = (before ++ e :: a) ++ d :: b := by
    rw [he, List.append_assoc, List.cons_append]
  exact ⟨_, List.mem_append_right _ List.mem_cons_self, h.follows hsplit⟩

theorem quiet (h : Protocol es) {more : List Event} (hq : ∀ e ∈ more, e.requestId? = none) :
    Protocol (es ++ more) := by
  induction more generalizing es with
  | nil => rwa [List.append_nil]
  | cons e more ih =>
    rw [List.append_cons]
    exact ih (h.snoc (.of_quiet (hq e List.mem_cons_self))) fun d hd =>
      hq d (List.mem_cons_of_mem e hd)

/-- Nothing is published about a round before it is opened. -/
theorem opened (h : Protocol es) (he : e ∈ es) (hi : e.requestId? = some id) :
    ∃ trigger cursor servers, .requested id trigger cursor servers ∈ es := by
  cases ho : e.opens? with
  | none =>
    obtain ⟨before, after, rfl⟩ := List.append_of_mem he
    obtain ⟨servers, hr⟩ := (h.follows rfl).running hi ho
    obtain ⟨trigger, cursor, hm⟩ := hr.opened
    exact ⟨trigger, cursor, servers, List.mem_append_left _ hm⟩
  | some i =>
    cases e with
    | requested j trigger cursor servers =>
      obtain rfl := Option.some.inj hi
      exact ⟨trigger, cursor, servers, he⟩
    | _ => cases ho

theorem opens_pairwise (h : Protocol es) :
    (es.filterMap Event.opens?).Pairwise fun i j => i.toNat < j.toNat := by
  induction h with
  | nil => exact .nil
  | @snoc es e hp he ih =>
    rw [List.filterMap_append, List.pairwise_append]
    refine ⟨ih, ?_, fun i hi j hj => ?_⟩
    · cases ho : e.opens? with
      | none => simp [ho]
      | some i => simp [ho]
    · obtain ⟨d, hd, hdi⟩ := List.mem_filterMap.mp hi
      obtain ⟨f, hf, hfj⟩ := List.mem_filterMap.mp hj
      rw [List.mem_singleton.mp hf] at hfj
      exact he.fresh hfj d hd i (Event.requestId?_of_opens? hdi)

theorem opens_nodup (h : Protocol es) : (es.filterMap Event.opens?).Nodup := by
  refine h.opens_pairwise.imp ?_
  rintro i j hlt rfl
  exact Nat.lt_irrefl _ hlt

theorem ended (h : Protocol es) (he : es = before ++ e :: after) (hi : e.ends? = some id) :
    ∀ d ∈ after, d.requestId? ≠ some id := by
  intro d hd hid
  obtain ⟨past, hm, hf⟩ := h.follows_later he hd
  cases ho : d.opens? with
  | none =>
    obtain ⟨servers, hr⟩ := hf.running hid ho
    exact hr.lasting e hm hi
  | some i =>
    obtain rfl := Option.some.inj ((Event.requestId?_of_opens? ho).symm.trans hid)
    exact Nat.lt_irrefl _ (hf.fresh ho e hm i (Event.requestId?_of_ends? hi))

end Protocol

/-- Nothing was published about a round but that it was opened. -/
def Untold (past : List Event) (id : RequestId) (servers : List ServerId) : Prop :=
  ∃ trigger cursor, .requested id trigger cursor servers ∈ past ∧
    ∀ e ∈ past, e.requestId? = some id → e = .requested id trigger cursor servers

namespace Untold

variable {es : List Event} {id : RequestId} {servers : List ServerId}

theorem of_since {before since : List Event} {trigger : Trigger} {cursor : Cursor}
    (h : Protocol (before ++ .requested id trigger cursor servers :: since))
    (hq : ∀ e ∈ since, e.requestId? = none) :
    Untold (before ++ .requested id trigger cursor servers :: since) id servers := by
  refine ⟨trigger, cursor, List.mem_append_right _ List.mem_cons_self, fun e he hi => ?_⟩
  rcases List.mem_append.mp he with he | he
  · exact absurd ((h.follows rfl).fresh rfl e he id hi) (Nat.lt_irrefl _)
  · rcases List.mem_cons.mp he with rfl | he
    · rfl
    · rw [hq e he] at hi
      cases hi

theorem running (h : Untold es id servers) : Running es id servers := by
  obtain ⟨trigger, cursor, hm, honly⟩ := h
  refine ⟨⟨trigger, cursor, hm⟩, fun e he hi => ?_⟩
  rw [honly e he (Event.requestId?_of_ends? hi)] at hi
  cases hi

theorem unfailed (h : Untold es id servers) (server : ServerId) (error : ResponseError) :
    .requestFailed id server error ∉ es := by
  obtain ⟨_, _, _, honly⟩ := h
  intro hm
  cases honly _ hm rfl

theorem quiet (h : Untold es id servers) {more : List Event}
    (hq : ∀ e ∈ more, e.requestId? = none) : Untold (es ++ more) id servers := by
  obtain ⟨trigger, cursor, hm, honly⟩ := h
  refine ⟨trigger, cursor, List.mem_append_left _ hm, fun e he hi => ?_⟩
  rcases List.mem_append.mp he with he | he
  · exact honly e he hi
  · rw [hq e he] at hi
    cases hi

end Untold

/-- All failures of a round may be published, one for each server. -/
theorem Protocol.failures {es : List Event} {id : RequestId} {servers : List ServerId}
    {failures : List (ServerId × ResponseError)} (h : Protocol es) (hr : Running es id servers)
    (hs : ∀ f ∈ failures, f.1 ∈ servers) (hd : failures.Pairwise fun a b => a.1 < b.1)
    (hn : ∀ f ∈ failures, ∀ error, .requestFailed id f.1 error ∉ es) :
    Protocol (es ++ failures.map fun f => .requestFailed id f.1 f.2) ∧
      Running (es ++ failures.map fun f => .requestFailed id f.1 f.2) id servers := by
  induction failures generalizing es with
  | nil =>
    rw [List.map_nil, List.append_nil]
    exact ⟨h, hr⟩
  | cons f rest ih =>
    obtain ⟨hlt, hd⟩ := List.pairwise_cons.mp hd
    have hf := hs f List.mem_cons_self
    have hfollows : Follows es (.requestFailed id f.1 f.2) :=
      ⟨⟨servers, hr, hf⟩, hn f List.mem_cons_self⟩
    have hrun : Running (es ++ [.requestFailed id f.1 f.2]) id servers := by
      obtain ⟨trigger, cursor, hm⟩ := hr.opened
      refine ⟨⟨trigger, cursor, List.mem_append_left _ hm⟩, fun e he => ?_⟩
      rcases List.mem_append.mp he with he | he
      · exact hr.lasting e he
      · rw [List.mem_singleton.mp he]
        exact nofun
    rw [List.map_cons, List.append_cons]
    refine ih (h.snoc hfollows) hrun (fun g hg => hs g (List.mem_cons_of_mem f hg)) hd ?_
    intro g hg error hm
    rcases List.mem_append.mp hm with hm | hm
    · exact hn g (List.mem_cons_of_mem f hg) error hm
    · have he : g.1 = f.1 := by
        have h := List.mem_singleton.mp hm
        injection h
      exact Std.lt_irrefl (he ▸ hlt g hg)

/-- The protocol goes on without a new round. -/
structure Continues (es fs : List Event) : Prop where
  protocol : Protocol fs
  opened : ∀ e ∈ fs, e.opens? = none ∨ e ∈ es

namespace Continues

variable {es more : List Event}

theorem refl (h : Protocol es) : Continues es es := ⟨h, fun _ he => .inr he⟩

theorem append (h : Protocol (es ++ more)) (ho : ∀ e ∈ more, e.opens? = none) :
    Continues es (es ++ more) :=
  ⟨h, fun e he => (List.mem_append.mp he).elim .inr fun hm => .inl (ho e hm)⟩

theorem quiet (h : Protocol es) (hq : ∀ e ∈ more, e.requestId? = none) :
    Continues es (es ++ more) := by
  refine append (h.quiet hq) fun e he => ?_
  cases ho : e.opens? with
  | none => rfl
  | some id => cases (Event.requestId?_of_opens? ho).symm.trans (hq e he)

theorem trans {fs gs : List Event} (h : Continues es fs) (g : Continues fs gs) :
    Continues es gs :=
  ⟨g.protocol, fun e he => (g.opened e he).elim .inl (h.opened e)⟩

theorem cancelled (h : Protocol es) {id : RequestId} {servers : List ServerId}
    (hu : Untold es id servers) (reason : CancelReason) :
    Continues es (es ++ [.cancelled id reason]) := by
  have hf : Follows es (.cancelled id reason) := ⟨⟨servers, hu.running⟩, hu.unfailed⟩
  refine append (h.snoc hf) fun e he => ?_
  rw [List.mem_singleton.mp he]
  rfl

end Continues

end Autocomplete
