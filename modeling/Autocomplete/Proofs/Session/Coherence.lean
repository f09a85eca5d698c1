import Autocomplete.Proofs.Session.Accounts

/-! What a session remembers about its requests agrees with the requests themselves: the pending
requests of the round are live and of one kind, and signature help and resolving keep to their own. -/
namespace Autocomplete.Session
open Observation

/-- The round that is under way waits for the answer to a request. -/
def Pending (s : Session) (server : ServerId) (n : Nat) : Prop :=
  ∃ c, s.round = some c ∧ c.pending.find? server = some n

theorem not_pending_of_round {s : Session} (h : s.round = none) (server : ServerId) (n : Nat) :
    ¬ s.Pending server n := by
  rintro ⟨c, hc, _⟩
  rw [h] at hc
  cases hc

theorem pending_iff {s : Session} {c : Round} (h : s.round = some c) (server : ServerId) (n : Nat) :
    s.Pending server n ↔ c.pending.find? server = some n := by
  constructor
  · rintro ⟨d, hd, hn⟩
    rw [h] at hd
    cases hd
    exact hn
  · exact fun hn => ⟨c, h, hn⟩

structure Coherent (s : Session) : Prop where
  accounts : Accounts s.Pending s
  live : ∀ server n r, s.Pending server n → s.requests[n]? = some r → r.live = true
  ofRound : ∀ c server n, s.round = some c → c.pending.find? server = some n →
    s.purpose? n = some (.completion c.id)
  signature : ∀ g n, s.signatureRound = some g → n ∈ g.asked ∨ n ∈ g.pending.values →
    s.purpose? n = some .signatureHelp
  resolve : ∀ p, s.resolve = some p → s.purpose? p.number = some .resolve
  bindings : ∀ server b, s.bindings.find? server = some b → b.server = server

theorem coherent_setup (setup : Setup) : Coherent setup.session where
  accounts := by
    refine ⟨?_, ?_, ?_, ?_, ?_, ?_, ?_, ?_⟩
    · exact fun n hn => absurd hn List.not_mem_nil
    · exact List.nodup_nil
    · exact fun n => rfl
    · exact fun n hn => absurd hn List.not_mem_nil
    · exact fun server n hp => absurd hp (not_pending_of_round rfl server n)
    · exact fun n r hn => by cases hn
    · exact fun n server purpose hn => absurd hn List.not_mem_nil
    · exact List.nodup_nil
  live := fun server n _ hp => absurd hp (not_pending_of_round rfl server n)
  ofRound := fun c _ _ hc => by cases hc
  signature := fun g _ hg => by cases hg
  resolve := fun p hp => by cases hp
  bindings := fun server b hb => by cases hb

/-- Nothing happens that is about requests. -/
structure Silent (s t : Session) : Prop where
  books : SameBooks s t
  round : t.round = s.round
  signatureRound : t.signatureRound = s.signatureRound
  resolve : t.resolve = s.resolve

theorem Silent.coherent {s t : Session} (h : Silent s t) (hs : Coherent s)
    (hb : ∀ server b, t.bindings.find? server = some b → b.server = server) : Coherent t := by
  have hp (n : Nat) : t.purpose? n = s.purpose? n := by rw [purpose?, purpose?, h.books.requests]
  have hpend (server : ServerId) (n : Nat) : s.Pending server n ↔ t.Pending server n := by
    rw [Pending, Pending, h.round]
  refine ⟨(hs.accounts.same h.books).congr hpend, fun server n r hn hr => ?_,
    fun c server n hc hn => ?_, fun g n hg hn => ?_, fun p hr => ?_, hb⟩
  · exact hs.live server n r ((hpend server n).mpr hn) (h.books.requests ▸ hr)
  · rw [hp]
    exact hs.ofRound c server n (h.round ▸ hc) hn
  · rw [hp]
    exact hs.signature g n (h.signatureRound ▸ hg) hn
  · rw [hp]
    exact hs.resolve p (h.resolve ▸ hr)

theorem Coherent.completion {s : Session} (h : Coherent s) {server : ServerId} {n : Nat}
    (hp : s.Pending server n) : ∃ id, s.purpose? n = some (.completion id) := by
  obtain ⟨c, hc, hn⟩ := hp
  exact ⟨c.id, h.ofRound c server n hc hn⟩

/-- A request that is not about completion has no answer in a round. -/
theorem Coherent.unrecorded {s : Session} (h : Coherent s) {n : Nat} {purpose : Purpose}
    (hp : s.purpose? n = some purpose) (hc : purpose.isCompletion = false) : n ∉ s.recorded := by
  intro hn
  obtain ⟨r, hr, hcomp⟩ := h.accounts.recorded n hn
  rw [purpose?, hr] at hp
  obtain rfl := Option.some.inj hp
  rw [hc] at hcomp
  exact Bool.noConfusion hcomp

theorem giveUpRound_coherent {s : Session} (h : Coherent s) (reason : CancelReason) :
    Coherent (s.giveUpRound reason) := by
  have hn := s.giveUpRound_round reason
  have hf := s.giveUpRound_frame reason
  have hpur (n : Nat) : (s.giveUpRound reason).purpose? n = s.purpose? n := by
    unfold giveUpRound
    split
    · exact cancelAll_purpose? _ _ _ n
    · rfl
  have hacc : Accounts (s.giveUpRound reason).Pending (s.giveUpRound reason) := by
    unfold giveUpRound
    split
    next c hc =>
      have hb : SameBooks s { s with round := none } := ⟨rfl, rfl, rfl, rfl, rfl, rfl⟩
      have hall := (h.accounts.same hb).cancelAll c.asked c.pending fun n hv => by
        obtain ⟨server, hv⟩ := (Table.mem_values_iff _ _).mp hv
        exact h.accounts.unrecorded ⟨c, hc, hv⟩
      have he : Adds [.givenUp] ({ s with round := none }.cancelAll c.asked c.pending)
          (({ s with round := none }.cancelAll c.asked c.pending).emit (.cancelled c.id reason)) :=
        Adds.emit _ _ (by simp [kind])
      refine (hall.same (he.sameBooks (by simp) rfl rfl rfl)).congr fun server n =>
        ⟨fun hp => ?_, fun hp => ?_⟩
      · obtain ⟨⟨d, hd, hv⟩, hnot⟩ := hp
        rw [hc] at hd
        cases hd
        exact absurd ((Table.mem_values_iff _ _).mpr ⟨server, hv⟩) hnot
      · exact absurd hp (not_pending_of_round (by rw [emit, cancelAll_frame]) server n)
    next => exact h.accounts
  refine ⟨hacc, fun server n _ hp => absurd hp (not_pending_of_round hn server n),
    fun c _ _ hc => ?_, fun g n hg hm => ?_, fun p hp => ?_, ?_⟩
  · rw [hn] at hc
    cases hc
  · rw [hpur]
    exact h.signature g n (by rw [hf] at hg; exact hg) hm
  · rw [hpur]
    exact h.resolve p (by rw [hf] at hp; exact hp)
  · rw [hf]
    exact h.bindings

/-- The pending requests are the same as before, and still wanted. -/
theorem Coherent.keep {s t : Session} (h : Coherent s) (accounts : Accounts s.Pending t)
    (hr : t.round = s.round) (hb : t.bindings = s.bindings)
    (kept : ∀ server n r, s.Pending server n → t.requests[n]? = some r →
      ∃ q, s.requests[n]? = some q ∧ r.live = q.live ∧ r.purpose = q.purpose)
    (signature : ∀ g n, t.signatureRound = some g → n ∈ g.asked ∨ n ∈ g.pending.values →
      t.purpose? n = some .signatureHelp)
    (resolve : ∀ p, t.resolve = some p → t.purpose? p.number = some .resolve) : Coherent t := by
  have hpend (server : ServerId) (n : Nat) : s.Pending server n ↔ t.Pending server n := by
    rw [Pending, Pending, hr]
  refine ⟨accounts.congr hpend, fun server n r hn hq => ?_, fun c server n hc hn => ?_, signature,
    resolve, hb ▸ h.bindings⟩
  · obtain ⟨q, hs, hl, _⟩ := kept server n r ((hpend server n).mpr hn) hq
    rw [hl]
    exact h.live server n q ((hpend server n).mpr hn) hs
  · have hp : s.Pending server n := ⟨c, hr ▸ hc, hn⟩
    obtain ⟨r, hq, _⟩ := accounts.pending server n hp
    obtain ⟨q, hs, _, he⟩ := kept server n r hp hq
    have ho := h.ofRound c server n (hr ▸ hc) hn
    rw [purpose?, hs] at ho
    rw [purpose?, hq, Option.map_some, he]
    exact ho

theorem cancelSignatureRound_coherent {s : Session} (h : Coherent s) :
    Coherent s.cancelSignatureRound := by
  have hf := s.cancelSignatureRound_frame
  have hpur (n : Nat) : s.cancelSignatureRound.purpose? n = s.purpose? n := by
    unfold cancelSignatureRound
    split
    · exact cancelAll_purpose? _ _ _ n
    · rfl
  have hround : s.cancelSignatureRound.signatureRound = none := by rw [hf]
  refine h.keep ?_ (by rw [hf]) (by rw [hf]) (fun server n r hp hr => ?_) (fun g _ hg => ?_)
    (fun p hp => ?_)
  · unfold cancelSignatureRound
    split
    next g hg =>
      have hb : SameBooks s { s with signatureRound := none } := ⟨rfl, rfl, rfl, rfl, rfl, rfl⟩
      have hall := (h.accounts.same hb).cancelAll g.asked g.pending fun n hv =>
        h.unrecorded (h.signature g n hg (.inr hv)) rfl
      refine hall.congr fun server n => ⟨And.left, fun hp => ⟨hp, fun hv => ?_⟩⟩
      obtain ⟨id, hid⟩ := h.completion hp
      rw [h.signature g n hg (.inr hv)] at hid
      cases hid
    next => exact h.accounts
  · obtain ⟨id, hid⟩ := h.completion hp
    have hsame : s.cancelSignatureRound.requests[n]? = s.requests[n]? := by
      unfold cancelSignatureRound
      split
      next g hg =>
        have ha : n ∉ g.asked := fun hm => by
          rw [h.signature g n hg (.inl hm)] at hid
          cases hid
        have hp : n ∉ g.pending.values := fun hm => by
          rw [h.signature g n hg (.inr hm)] at hid
          cases hid
        rw [cancelAll_requests]
        simp [ha, hp]
      next => rfl
    exact ⟨r, hsame ▸ hr, rfl, rfl⟩
  · rw [hround] at hg
    cases hg
  · rw [hpur]
    exact h.resolve p (by rw [hf] at hp; exact hp)

/-- Requests that are not about completion are cancelled by themselves. -/
theorem cancel_coherent {s : Session} (h : Coherent s) {n : Nat} {purpose : Purpose}
    (hn : s.purpose? n = some purpose) (hc : purpose.isCompletion = false) :
    Coherent (s.cancel n) := by
  have hf := s.cancel_frame n
  have hne {x : ServerId} {k : Nat} (hp : s.Pending x k) : k ≠ n := by
    rintro rfl
    obtain ⟨id, hid⟩ := h.completion hp
    rw [hn] at hid
    obtain rfl := Option.some.inj hid
    exact Bool.noConfusion hc
  have hacc := h.accounts.cancel n (h.unrecorded hn hc)
  refine h.keep (hacc.congr fun x k => ⟨And.left, fun hp => ⟨hp, hne hp⟩⟩) (by rw [hf]) (by rw [hf])
    (fun x k r hp hr => ?_) (fun g k hg hm => ?_) (fun p hp => ?_)
  · rw [cancel_requests] at hr
    simp only [Ne.symm (hne hp), if_false, Option.map_id'] at hr
    exact ⟨r, hr, rfl, rfl⟩
  · rw [cancel_purpose?]
    rw [hf] at hg
    exact h.signature g k hg hm
  · rw [cancel_purpose?]
    rw [hf] at hp
    exact h.resolve p hp

theorem Coherent.dropResolve {s : Session} (h : Coherent s) :
    Coherent { s with resolve := none } :=
  ⟨h.accounts.same ⟨rfl, rfl, rfl, rfl, rfl, rfl⟩, h.live, h.ofRound, h.signature,
    (fun _ hp => by cases hp), h.bindings⟩

theorem supersedeResolve_coherent {s : Session} (h : Coherent s) : Coherent s.supersedeResolve := by
  unfold supersedeResolve
  split
  next pending hpend =>
    have hl : Adds [.plain] { s with resolve := none }
        { s.log .debug "accept" "Superseding pending resolve" with resolve := none } :=
      Adds.log s .debug "accept" "Superseding pending resolve" []
    have hs : Silent { s with resolve := none }
        { s.log .debug "accept" "Superseding pending resolve" with resolve := none } :=
      ⟨hl.sameBooks (by simp) rfl rfl rfl, rfl, rfl, rfl⟩
    exact cancel_coherent (hs.coherent h.dropResolve h.bindings) (h.resolve pending hpend) rfl
  · exact h

theorem Coherent.number_lt {s : Session} {n : Nat} {p : Purpose} (h : s.purpose? n = some p) :
    n < s.requests.length := by
  obtain ⟨r, hr, _⟩ := Option.map_eq_some_iff.mp h
  exact (List.getElem?_eq_some_iff.mp hr).1

/-- Requests that are not about completion are sent. -/
theorem Coherent.grow {s t : Session} (h : Coherent s) (accounts : Accounts s.Pending t)
    (hold : ∀ k < s.requests.length, t.requests[k]? = s.requests[k]?)
    (hr : t.round = s.round) (hb : t.bindings = s.bindings)
    (signature : ∀ g n, t.signatureRound = some g → n ∈ g.asked ∨ n ∈ g.pending.values →
      s.signatureRound = some g ∨ t.purpose? n = some .signatureHelp)
    (resolve : ∀ p, t.resolve = some p →
      s.resolve = some p ∨ t.purpose? p.number = some .resolve) : Coherent t := by
  have hpur {n : Nat} {p : Purpose} (hn : s.purpose? n = some p) : t.purpose? n = some p := by
    rw [purpose?, hold n (number_lt hn)]
    exact hn
  refine h.keep accounts hr hb (fun server n r hp hn => ?_) (fun g n hg hm => ?_) (fun p hp => ?_)
  · obtain ⟨q, hq, _⟩ := h.accounts.pending server n hp
    have hs := hold n (List.getElem?_eq_some_iff.mp hq).1
    exact ⟨r, hs ▸ hn, rfl, rfl⟩
  · exact (signature g n hg hm).elim (fun hs => hpur (h.signature g n hs hm)) id
  · exact (resolve p hp).elim (fun hs => hpur (h.resolve p hs)) id

theorem send_accounts {s : Session} (h : Coherent s) (server : ServerId) (purpose : Purpose)
    (params : Json) (hc : purpose.isCompletion = false) :
    Accounts s.Pending (s.send server purpose params).1 := by
  refine (h.accounts.send server purpose params).congr fun x n => ⟨fun hp => ?_, .inl⟩
  rcases hp with hp | ⟨hp, _⟩
  · exact hp
  · rw [hc] at hp
    exact Bool.noConfusion hp

theorem sendCommand_coherent {s : Session} (h : Coherent s) (server : ServerId) (name : String)
    (params : Json) : Coherent (s.send server (.command name) params).1 := by
  have hf := s.send_frame server (.command name) params
  refine h.grow (send_accounts h server _ params rfl) (send_requests s server _ params)
    (by rw [hf]) (by rw [hf]) (fun g n hg _ => .inl ?_) (fun p hp => .inl ?_)
  · rw [hf] at hg
    exact hg
  · rw [hf] at hp
    exact hp

theorem sendResolve_coherent {s : Session} (h : Coherent s) (payload : Payload)
    (expansion : Option Expansion) : Coherent (s.sendResolve payload expansion) := by
  have hf := s.send_frame payload.server .resolve payload.item.encode
  have hnum := (s.send_eq payload.server .resolve payload.item.encode).1
  have hold := s.send_requests payload.server .resolve payload.item.encode
  obtain ⟨r, hr, _, hpur, _⟩ := s.send_new payload.server .resolve payload.item.encode
  have hacc := send_accounts h payload.server .resolve payload.item.encode rfl
  unfold sendResolve
  generalize s.send payload.server .resolve payload.item.encode = result at *
  obtain ⟨u, n⟩ := result
  dsimp only at hf hnum hold hr hacc ⊢
  have hround : u.round = s.round := by rw [hf]
  have hbind : u.bindings = s.bindings := by rw [hf]
  have hsig : u.signatureRound = s.signatureRound := by rw [hf]
  have hl (p : Option PendingResolve) : Adds [.plain] u
      { u.log .debug "accept" "Resolving accepted item" [("server", .str payload.server.display),
          ("label", .str payload.item.label)] with resolve := p } :=
    Adds.log u .debug "accept" "Resolving accepted item" _
  refine h.grow (hacc.same ((hl _).sameBooks (by simp) rfl rfl rfl)) hold hround hbind
    (fun g n hg _ => .inl (hsig.symm.trans hg)) (fun p hp => .inr ?_)
  obtain rfl := Option.some.inj hp
  change u.purpose? n = some .resolve
  rw [hnum, purpose?, hr, ← hpur]
  rfl

/-- Asking servers about completion makes their requests pending, besides those that are. -/
theorem Accounts.askAll {pend : ServerId → Nat → Prop} {s : Session} (h : Accounts pend s)
    (purpose : Purpose) (params : Session → Binding → Json) (bs : List Binding) :
    Accounts (fun x n => pend x n ∨
        purpose.isCompletion = true ∧ (x, n) ∈ (askAll purpose params s bs).2)
      (askAll purpose params s bs).1 := by
  refine askAll_induction purpose params (P := fun t asked =>
    Accounts (fun x n => pend x n ∨ purpose.isCompletion = true ∧ (x, n) ∈ asked) t)
    (fun t asked server json ht => ?_) bs s [] (h.congr fun x n => by simp)
  refine (ht.send server purpose json).congr fun x n => ?_
  rw [List.mem_append, List.mem_singleton, Prod.mk.injEq, and_or_left, or_assoc]

theorem openSignatureRound_coherent {s : Session} (h : Coherent s) (trigger : Option Char) :
    Coherent (s.openSignatureRound trigger) := by
  have hacc := h.accounts.askAll .signatureHelp (fun s b => s.signatureParams trigger b)
    (s.bindings.values.filter (wantsSignature trigger))
  have hf := askAll_frame .signatureHelp (fun s b => s.signatureParams trigger b) s
    (s.bindings.values.filter (wantsSignature trigger))
  obtain ⟨hold, hnew⟩ := askAll_requests .signatureHelp (fun s b => s.signatureParams trigger b) s
    (s.bindings.values.filter (wantsSignature trigger))
  unfold openSignatureRound
  split
  next u asked hu =>
    rw [hu] at hacc hf hold hnew
    dsimp only at hacc hf hold hnew
    have hacc : Accounts s.Pending u := hacc.congr fun x n =>
      ⟨fun hp => hp.resolve_right (by simp [Purpose.isCompletion]), .inl⟩
    have hround : u.round = s.round := by rw [hf]
    have hbind : u.bindings = s.bindings := by rw [hf]
    have hsig : u.signatureRound = s.signatureRound := by rw [hf]
    have hres : u.resolve = s.resolve := by rw [hf]
    split
    · exact h.grow hacc hold hround hbind (fun g n hg _ => .inl (hsig ▸ hg))
        (fun p hp => .inl (hres ▸ hp))
    · extract_lets v
      have hl (g : Option SignatureRound) : Adds [.plain] u { v with signatureRound := g } :=
        Adds.log u ..
      have hnum {n : Nat} (hn : ∃ x, (x, n) ∈ asked) : u.purpose? n = some .signatureHelp := by
        obtain ⟨x, hn⟩ := hn
        obtain ⟨_, r, hr, _, hp, _⟩ := hnew x n hn
        rw [purpose?, hr, ← hp]
        rfl
      refine h.grow (hacc.same ((hl _).sameBooks (by simp) rfl rfl rfl)) hold
        hround hbind (fun g n hg hm => .inr (hnum ?_)) (fun p hp => .inl (hres.symm.trans hp))
      obtain rfl := Option.some.inj hg
      rcases hm with hm | hm
      · obtain ⟨e, he, rfl⟩ := List.mem_map.mp hm
        exact ⟨e.1, he⟩
      · obtain ⟨x, hx⟩ := (Table.mem_values_iff _ _).mp hm
        exact ⟨x, Table.mem_of_find?_ofList hx⟩

/-- The servers that complete are asked once each. -/
theorem Coherent.nodup_servers {s : Session} (h : Coherent s) (p : Binding → Bool) :
    ((s.bindings.values.filter p).map (·.server)).Nodup := by
  have he : s.bindings.values.map (·.server) = s.bindings.keys := by
    rw [Table.values, List.map_map]
    refine List.map_congr_left fun e he => ?_
    exact h.bindings e.1 e.2 ((Table.find?_eq_some_iff _ _ _).mpr he)
  refine List.Nodup.sublist (List.filter_sublist.map _) ?_
  rw [he]
  exact Table.nodup_keys _

theorem openRound_coherent {s : Session} (h : Coherent s) (trigger : Trigger)
    (hn : s.round = none) : Coherent (s.openRound trigger) := by
  have hpend (x : ServerId) (n : Nat) : ¬ s.Pending x n := not_pending_of_round hn x n
  unfold openRound
  extract_lets cursor id t
  have hb : SameBooks s t := ⟨rfl, rfl, rfl, rfl, rfl, rfl⟩
  have hacc := (h.accounts.same hb).askAll (.completion id) (fun s b => s.completionParams trigger b)
    (t.bindings.values.filter (·.completes))
  have hf := askAll_frame (.completion id) (fun s b => s.completionParams trigger b) t
    (t.bindings.values.filter (·.completes))
  obtain ⟨hold, hnew⟩ := askAll_requests (.completion id)
    (fun s b => s.completionParams trigger b) t (t.bindings.values.filter (·.completes))
  have hkeys := askAll_servers (.completion id) (fun s b => s.completionParams trigger b)
    (t.bindings.values.filter (·.completes)) t
  split
  next u asked hu =>
    rw [hu] at hacc hf hold hnew hkeys
    dsimp only at hacc hf hold hnew hkeys
    have hround : u.round = none := by rw [hf]; exact hn
    have hbind : u.bindings = s.bindings := by rw [hf]
    have hsig : u.signatureRound = s.signatureRound := by rw [hf]
    have hres : u.resolve = s.resolve := by rw [hf]
    split
    next hempty =>
      obtain rfl := List.isEmpty_iff.mp hempty
      have hl : Adds [.plain] u
          (u.log .debug "engine" "No server accepted the completion request") := Adds.log ..
      refine h.grow ((hacc.congr fun x n => ?_).same (hl.sameBooks (by simp) rfl rfl rfl)) hold
        (hround.trans hn.symm) hbind (fun g n hg _ => .inl (hsig.symm.trans hg))
        (fun p hp => .inl (hres.symm.trans hp))
      exact ⟨fun hp => absurd (hp.resolve_right (by simp)) (hpend x n), fun hp => .inl hp⟩
    next =>
      extract_lets tracked v w pending round
      have hl : Adds [.plain] u w := Adds.log v ..
      have he : Adds [.plain, .opened] u
          ({ w with round := some round }.emit (.requested id trigger cursor pending.keys)) :=
        (hl.mono (by simp)).trans (Adds.emit _ _ (by simp [kind]))
      have hfind (x : ServerId) (n : Nat) : pending.find? x = some n ↔ (x, n) ∈ asked :=
        Table.find?_ofList (hkeys ▸ h.nodup_servers _) x n
      have hnow (x : ServerId) (n : Nat) :
          Pending ({ w with round := some round }.emit (.requested id trigger cursor pending.keys))
            x n ↔ (x, n) ∈ asked := (pending_iff rfl x n).trans (hfind x n)
      have hpur {n : Nat} {p : Purpose} (hn : s.purpose? n = some p) : u.purpose? n = some p := by
        rw [purpose?, hold n (Coherent.number_lt hn)]
        exact hn
      refine ⟨(hacc.same (he.sameBooks (by simp) rfl rfl rfl)).congr fun x n => ?_,
        fun x n r hp hr => ?_, fun c x n hc hm => ?_, fun g n hg hm => ?_, fun p hp => ?_,
        hbind ▸ h.bindings⟩
      · rw [hnow]
        exact ⟨fun hp => (hp.resolve_left (hpend x n)).2, fun hm => .inr ⟨rfl, hm⟩⟩
      · obtain ⟨_, q, hq, _, _, hlive⟩ := hnew x n ((hnow x n).mp hp)
        obtain rfl := Option.some.inj (hq.symm.trans hr)
        exact hlive
      · obtain rfl := Option.some.inj hc
        obtain ⟨_, q, hq, _, hp, _⟩ := hnew x n ((hfind x n).mp hm)
        change u.purpose? n = _
        rw [purpose?, hq, Option.map_some, hp]
      · exact hpur (h.signature g n (hsig.symm.trans hg) hm)
      · exact hpur (h.resolve p (hres.symm.trans hp))

theorem answer_coherent {s : Session} (h : Coherent s) (n : Nat) (reply : Reply) :
    Coherent (s.answer n reply) := by
  have hf := s.answer_frame n reply
  refine h.keep (h.accounts.answer n reply) (by rw [hf]) (by rw [hf]) (fun server k r _ hr => ?_)
    (fun g k hg hm => ?_) (fun p hp => ?_)
  · rw [answer_requests] at hr
    obtain ⟨q, hq, rfl⟩ := Option.map_eq_some_iff.mp hr
    refine ⟨q, hq, ?_⟩
    split <;> exact ⟨rfl, rfl⟩
  · rw [answer_purpose?]
    rw [hf] at hg
    exact h.signature g k hg hm
  · rw [answer_purpose?]
    rw [hf] at hp
    exact h.resolve p hp

theorem discard_coherent {s : Session} (h : Coherent s) (place : Nat) :
    Coherent { s with queue := s.queue.eraseIdx place } :=
  ⟨h.accounts.discard place, h.live, h.ofRound, h.signature, h.resolve, h.bindings⟩

/-- Fewer signature help requests are pending. -/
theorem Coherent.narrowSignature {s : Session} (h : Coherent s) (round : Option SignatureRound)
    (hg : ∀ g n, round = some g → n ∈ g.asked ∨ n ∈ g.pending.values →
      s.purpose? n = some .signatureHelp) : Coherent { s with signatureRound := round } :=
  ⟨h.accounts.same ⟨rfl, rfl, rfl, rfl, rfl, rfl⟩, h.live, h.ofRound, hg, h.resolve, h.bindings⟩

theorem Coherent.erased {s : Session} (h : Coherent s) {g : SignatureRound}
    (hg : s.signatureRound = some g) (server : ServerId) {n : Nat}
    (hn : n ∈ g.asked ∨ n ∈ (g.pending.erase server).values) :
    s.purpose? n = some .signatureHelp := by
  refine h.signature g n hg (hn.imp_right fun hm => ?_)
  obtain ⟨x, hx⟩ := (Table.mem_values_iff _ _).mp hm
  exact (Table.mem_values_iff _ _).mpr ⟨x, Table.find?_of_erase hx⟩

/-- The round does not wait for a request any longer, since it was answered or cancelled. -/
theorem Coherent.narrow {s t : Session} {c d : Round} (h : Coherent s) (hc : s.round = some c)
    (hd : t.round = some d) (hid : d.id = c.id) {server : ServerId} {n : Nat}
    (hn : c.pending.find? server = some n) (hp : d.pending = c.pending.erase server)
    (accounts : Accounts (fun x k => s.Pending x k ∧ k ≠ n) t)
    (kept : ∀ k, k ≠ n → t.requests[k]? = s.requests[k]?)
    (purposes : ∀ k, t.purpose? k = s.purpose? k)
    (hsig : t.signatureRound = s.signatureRound) (hres : t.resolve = s.resolve)
    (hb : t.bindings = s.bindings) : Coherent t := by
  have hpend (x : ServerId) (k : Nat) : s.Pending x k ∧ k ≠ n ↔ t.Pending x k := by
    rw [pending_iff hc, pending_iff hd, hp, Table.find?_erase]
    constructor
    · rintro ⟨hk, hkn⟩
      rw [if_neg, hk]
      rintro rfl
      rw [hn] at hk
      exact hkn (Option.some.inj hk).symm
    · intro hk
      split at hk
      · cases hk
      next hx =>
        refine ⟨hk, ?_⟩
        rintro rfl
        -- One request was sent to one server.
        obtain ⟨r, hr, hs, _⟩ := h.accounts.pending x k ⟨c, hc, hk⟩
        obtain ⟨q, hq, ht, _⟩ := h.accounts.pending server k ⟨c, hc, hn⟩
        obtain rfl := Option.some.inj (hr.symm.trans hq)
        exact hx (ht.symm.trans hs)
  refine ⟨accounts.congr hpend, fun x k r hk hr => ?_, fun e x k he hk => ?_, fun g k hg hm => ?_,
    fun p hr => ?_, hb ▸ h.bindings⟩
  · obtain ⟨hk, hkn⟩ := (hpend x k).mpr hk
    exact h.live x k r hk (kept k hkn ▸ hr)
  · rw [hd] at he
    obtain rfl := Option.some.inj he
    obtain ⟨hk, _⟩ := (hpend x k).mpr ((pending_iff hd x k).mpr hk)
    rw [purposes, hid]
    exact h.ofRound c x k hc ((pending_iff hc x k).mp hk)
  · rw [purposes]
    exact h.signature g k (hsig ▸ hg) hm
  · rw [purposes]
    exact h.resolve p (hres ▸ hr)

/-- The round forgets the answer of a server that has nothing to do with the pending requests. -/
theorem Coherent.replaceRound {s : Session} {c d : Round} (h : Coherent s) (hc : s.round = some c)
    (hid : d.id = c.id) (hp : d.pending = c.pending) : Coherent { s with round := some d } := by
  have hpend (x : ServerId) (n : Nat) : s.Pending x n ↔ Pending { s with round := some d } x n := by
    have hd : ({ s with round := some d } : Session).round = some d := rfl
    rw [pending_iff hc, pending_iff hd, hp]
  have hb : SameBooks s { s with round := some d } := ⟨rfl, rfl, rfl, rfl, rfl, rfl⟩
  refine ⟨(h.accounts.same hb).congr hpend, fun x n r hn hr => h.live x n r ((hpend x n).mpr hn) hr,
    fun e x n he hn => ?_, h.signature, h.resolve, h.bindings⟩
  obtain rfl := Option.some.inj he
  rw [hid]
  exact h.ofRound c x n hc (hp ▸ hn)

theorem Coherent.dropRound {s : Session} (h : Coherent s) (hp : ∀ x n, ¬ s.Pending x n) :
    Coherent { s with round := none } := by
  have hn (x : ServerId) (n : Nat) : ¬ Pending { s with round := none } x n :=
    not_pending_of_round rfl x n
  have hb : SameBooks s { s with round := none } := ⟨rfl, rfl, rfl, rfl, rfl, rfl⟩
  refine ⟨(h.accounts.same hb).congr fun x n => ⟨fun he => absurd he (hp x n), fun he =>
    absurd he (hn x n)⟩, fun x n _ he => absurd he (hn x n), fun c _ _ hc => ?_, h.signature,
    h.resolve, h.bindings⟩
  cases hc

theorem finishRound_coherent {s : Session} (h : Coherent s) (hp : ∀ x n, ¬ s.Pending x n)
    (c : Round) : Coherent (s.finishRound c) := by
  have hf := s.finishRound_frame c
  have ha : Adds [.plain, .shown] { s with round := none } (s.finishRound c) :=
    Adds.finishRound s c
  have hs : Silent { s with round := none } (s.finishRound c) :=
    ⟨ha.sameBooks (by simp) (by rw [hf]) (by rw [hf]; rfl) (by rw [hf]), by rw [hf], by rw [hf],
      by rw [hf]⟩
  exact hs.coherent (h.dropRound hp) (by rw [hf]; exact h.bindings)

theorem finishSignatureRound_coherent {s : Session} (h : Coherent s) (g : SignatureRound) :
    Coherent (s.finishSignatureRound g) := by
  have hf := s.finishSignatureRound_frame g
  have ha : Adds [.plain] { s with signatureRound := none } (s.finishSignatureRound g) :=
    Adds.finishSignatureRound s g
  have hs : Silent { s with signatureRound := none } (s.finishSignatureRound g) :=
    ⟨ha.sameBooks (by simp) (by rw [hf]) (by rw [hf]; rfl) (by rw [hf]), by rw [hf], by rw [hf],
      by rw [hf]⟩
  exact hs.coherent (h.narrowSignature none fun _ _ hg => by cases hg) (by rw [hf]; exact h.bindings)

theorem takeSignature_coherent {s : Session} (h : Coherent s) (server : ServerId) (reply : Reply) :
    Coherent (s.takeSignature server reply) := by
  unfold takeSignature
  split
  next g hg =>
    split
    · extract_lets round
      split
      · exact finishSignatureRound_coherent h round
      · refine h.narrowSignature _ fun e n he hm => ?_
        obtain rfl := Option.some.inj he
        exact h.erased hg server hm
    · exact h
  · exact h

theorem detachFromSignature_coherent {s : Session} (h : Coherent s) (server : ServerId) :
    Coherent (s.detachFromSignature server) := by
  unfold detachFromSignature
  split
  next g hg =>
    split
    next n hn =>
      extract_lets round t
      have hpur : s.purpose? n = some .signatureHelp :=
        h.signature g n hg (.inr ((Table.mem_values_iff _ _).mpr ⟨server, hn⟩))
      have ht : Coherent t := by
        refine cancel_coherent (h.narrowSignature (some round) fun e k he hm => ?_) hpur rfl
        obtain rfl := Option.some.inj he
        exact h.erased hg server hm
      split
      · exact finishSignatureRound_coherent ht round
      · exact ht
    next => exact h
  next => exact h

theorem dropServer_coherent {s : Session} (h : Coherent s) {c : Round} (hc : s.round = some c)
    (server : ServerId) : Coherent (s.dropServer c server) := by
  unfold dropServer
  extract_lets t
  split
  next n hn =>
    have hb : SameBooks s t := ⟨rfl, rfl, rfl, rfl, rfl, rfl⟩
    have hacc := (h.accounts.same hb).cancel n (h.accounts.unrecorded ⟨c, hc, hn⟩)
    have hf := t.cancel_frame n
    have hround : (t.cancel n).round = some (c.drop server) := by rw [hf]
    refine h.narrow hc hround rfl hn rfl hacc (fun k hk => ?_) (cancel_purpose? t n) (by rw [hf])
      (by rw [hf]) (by rw [hf])
    rw [cancel_requests]
    simp [Ne.symm hk, t]
  next hn => exact h.replaceRound hc rfl (Table.erase_eq_self hn)

theorem detachFromRound_coherent {s : Session} (h : Coherent s) (server : ServerId) :
    Coherent (s.detachFromRound server) := by
  unfold detachFromRound
  split
  next => exact h
  next c hc =>
    extract_lets t
    have ht : Coherent t := dropServer_coherent h hc server
    have hround : t.round = some (c.drop server) := by rw [show t = _ from dropServer_frame ..]
    split
    · exact ht
    · split
      · exact ht
      next hne =>
        have hempty : ∀ x k, ¬ t.Pending x k := by
          intro x k hp
          rw [pending_iff hround] at hp
          simp only [Bool.not_eq_true', Bool.not_eq_false] at hne
          rw [(Table.isEmpty_iff _).mp hne x] at hp
          cases hp
        split
        · have he : Adds [.givenUp] { t with round := none }
              ({ t with round := none }.emit (.cancelled c.id .detached)) :=
            Adds.emit _ _ (by simp [kind])
          have hs : Silent { t with round := none }
              ({ t with round := none }.emit (.cancelled c.id .detached)) :=
            ⟨he.sameBooks (by simp) rfl rfl rfl, rfl, rfl, rfl⟩
          exact hs.coherent (ht.dropRound hempty) ht.bindings
        · exact finishRound_coherent ht hempty _

theorem detach_coherent {s : Session} (h : Coherent s) (server : ServerId) :
    Coherent (s.detach server) := by
  unfold detach
  split
  · extract_lets t
    have hb : SameBooks s t := by
      refine ⟨rfl, rfl, rfl, ?_, ?_, ?_⟩ <;>
        simp [t, note, asked, cancels, recorded, asked?, cancelled?, recorded?]
    have hs : Silent s t := ⟨hb, rfl, rfl, rfl⟩
    have ht : Coherent t := hs.coherent h fun x b hx =>
      h.bindings x b (Table.find?_of_erase hx)
    exact detachFromRound_coherent (detachFromSignature_coherent ht server) server
  · exact h

/-- The number of a message that was taken from the queue does not wait any more. -/
theorem waiting_discard {s : Session} (h : (s.waiting.map (·.1)).Nodup) {place n : Nat}
    {server : ServerId} {purpose : Purpose} {reply : Reply}
    (hm : s.queue[place]? = some (.reply n server purpose reply)) :
    n ∉ ({ s with queue := s.queue.eraseIdx place } : Session).waiting.map (·.1) := by
  obtain ⟨hlt, he⟩ := List.getElem?_eq_some_iff.mp hm
  have hq : s.queue = s.queue.take place ++
      .reply n server purpose reply :: s.queue.drop (place + 1) := by
    rw [← he, List.getElem_cons_drop, List.take_append_drop]
  rw [waiting, hq, List.filterMap_append, List.map_append] at h
  change (_ ++ n :: (List.filterMap Message.answered? _).map _).Nodup at h
  simp only [waiting, List.eraseIdx_eq_take_drop_succ, List.filterMap_append, List.map_append]
  exact (List.nodup_middle.mp h).notMem

/-- The answer that a message holds is that of the pending request of its server. -/
theorem Coherent.pending_of_live {s : Session} (h : Coherent s) {place n : Nat} {server : ServerId}
    {id : RequestId} {reply : Reply}
    (hm : s.queue[place]? = some (.reply n server (.completion id) reply))
    (hl : s.isLive (.reply n server (.completion id) reply) = true) :
    ∃ c, s.round = some c ∧ c.id = id ∧ c.pending.find? server = some n := by
  have hw : (n, server, Purpose.completion id) ∈ s.waiting :=
    List.mem_filterMap.mpr ⟨_, List.mem_of_getElem? hm, rfl⟩
  obtain ⟨r, hr, rfl, hp, _⟩ := h.accounts.waiting n server _ hw
  have hlive : r.live = true := by simpa [isLive, hr] using hl
  have hpend : s.Pending r.server n := by
    cases h.accounts.settled n r hr (by rw [hp]; rfl) with
    | pending hp => exact hp
    | answered _ _ _ _ hn => exact absurd (List.mem_map.mpr ⟨_, hw, rfl⟩) hn
    | cancelled _ _ hd =>
      rw [hd] at hlive
      exact Bool.noConfusion hlive
  obtain ⟨c, hc, hn⟩ := hpend
  have hid := h.ofRound c r.server n hc hn
  rw [purpose?, hr, Option.map_some, hp] at hid
  exact ⟨c, hc, (Purpose.completion.inj (Option.some.inj hid)).symm, hn⟩

/-- Taking the answer that the round waits for ends it if no other server has to answer. -/
theorem takeCompletion_eq {s : Session} {c : Round} {server : ServerId} {n : Nat} (reply : Reply)
    (hc : s.round = some c) (hn : c.pending.find? server = some n) :
    s.takeCompletion c.id server reply =
      let d := c.record server reply
      let t := { s with round := some d }.note (.recorded n server reply)
      if d.pending.isEmpty then t.finishRound d else t := by
  have hrec : s.recordReply c server reply =
      { s with round := some (c.record server reply) }.note (.recorded n server reply) := by
    simp only [recordReply, hn]
  unfold takeCompletion
  rw [hc]
  simp only [if_true, hrec]
  rfl

theorem takeCompletion_coherent {s : Session} (h : Coherent s) {place n : Nat} {server : ServerId}
    {id : RequestId} {reply : Reply}
    (hm : s.queue[place]? = some (.reply n server (.completion id) reply))
    (hl : s.isLive (.reply n server (.completion id) reply) = true) :
    Coherent ({ s with queue := s.queue.eraseIdx place }.takeCompletion id server reply) := by
  obtain ⟨c, hc, rfl, hn⟩ := h.pending_of_live hm hl
  have hw := waiting_discard h.accounts.single hm
  obtain ⟨r, hr, _, _, ha⟩ := h.accounts.waiting n server _
    (List.mem_filterMap.mpr ⟨_, List.mem_of_getElem? hm, rfl⟩)
  have hd := discard_coherent h place
  generalize hs : ({ s with queue := s.queue.eraseIdx place } : Session) = t at *
  have hround : t.round = some c := by rw [← hs]; exact hc
  have hreq : t.requests[n]? = some r := by rw [← hs]; exact hr
  rw [takeCompletion_eq reply hround hn]
  extract_lets d u
  have hacc : Accounts (fun x k => t.Pending x k ∧ k ≠ n) u :=
    (hd.accounts.record reply ⟨c, hround, hn⟩ hreq ha hw).same ⟨rfl, rfl, rfl, rfl, rfl, rfl⟩
  have hu : Coherent u :=
    hd.narrow hround (d := d) rfl rfl hn rfl hacc (fun _ _ => rfl) (fun _ => rfl) rfl rfl rfl
  have hnew : u.round = some d := rfl
  split
  next he =>
    refine finishRound_coherent hu (fun x k hp => ?_) d
    rw [pending_iff hnew, (Table.isEmpty_iff _).mp he x] at hp
    cases hp
  next => exact hu

theorem attach_coherent {s : Session} (h : Coherent s) (server : ServerId)
    (capabilities : Capabilities) (options : AttachOptions) :
    Coherent (s.attach server capabilities options) := by
  have hf := s.attach_frame server capabilities options
  have ha : Adds [.plain] s (s.attach server capabilities options) := Adds.attach ..
  have hs : Silent s (s.attach server capabilities options) :=
    ⟨ha.sameBooks (by simp) (by rw [hf]) (by rw [hf]; rfl) (by rw [hf]), by rw [hf], by rw [hf],
      by rw [hf]⟩
  refine hs.coherent h fun x b hx => ?_
  rw [hf] at hx
  change (s.bindings.insert _ _).find? x = some b at hx
  rw [Table.find?_insert] at hx
  split at hx
  next he =>
    obtain rfl := Option.some.inj hx
    exact he
  next => exact h.bindings x b hx

theorem registerCommand_coherent {s : Session} (h : Coherent s) (server : ServerId)
    (command : String) (reaction : Reaction) :
    Coherent (s.registerCommand server command reaction).1 := by
  unfold registerCommand
  split
  next b hb =>
    dsimp only
    have hs (bindings : ServerMap Binding) : Silent s { s with bindings } :=
      ⟨⟨rfl, rfl, rfl, rfl, rfl, rfl⟩, rfl, rfl, rfl⟩
    refine (hs _).coherent h fun x d hx => ?_
    rw [Table.find?_insert] at hx
    split at hx
    next he =>
      obtain rfl := Option.some.inj hx
      exact (h.bindings server b hb).trans he
    next => exact h.bindings x d hx
  next => exact h

theorem elapse_silent (s : Session) (ms : Nat) : Silent s (s.elapse ms) := by
  have hw : (s.elapse ms).waiting = s.waiting := by
    simp only [waiting, elapse, postTimers, List.filterMap_append]
    refine List.append_right_eq_self.mpr (List.filterMap_eq_nil_iff.mpr fun m hm => ?_)
    obtain ⟨⟨kind, timer⟩, _, hd⟩ := List.mem_filterMap.mp hm
    simp only [dueMessage?] at hd
    split at hd
    · obtain rfl := Option.some.inj hd
      rfl
    · cases hd
  exact ⟨⟨rfl, hw, rfl, rfl, rfl, rfl⟩, rfl, rfl, rfl⟩

theorem Adds.silent {kinds : List Kind} {s t : Session} (h : Adds kinds s t)
    (hk : kinds ⊆ [.plain, .text]) (hr : t.requests = s.requests) (hw : t.queue = s.queue)
    (hc : t.cancellable = s.cancellable) (hround : t.round = s.round)
    (hsig : t.signatureRound = s.signatureRound) (hres : t.resolve = s.resolve) : Silent s t :=
  ⟨h.sameBooks (List.Subset.trans hk (by simp)) hr (by rw [waiting, waiting, hw]) hc, hround, hsig,
    hres⟩

theorem Change.coherent {s t : Session} (hc : Change s t) (h : Coherent s) : Coherent t := by
  have still {u : Session} {kinds : List Kind} (ha : Adds kinds s u) (hk : kinds ⊆ [.plain, .text])
      (hr : u.requests = s.requests) (hw : u.queue = s.queue) (hcanc : u.cancellable = s.cancellable)
      (hround : u.round = s.round) (hsig : u.signatureRound = s.signatureRound)
      (hres : u.resolve = s.resolve) (hb : u.bindings = s.bindings) : Coherent u :=
    (ha.silent hk hr hw hcanc hround hsig hres).coherent h (hb ▸ h.bindings)
  cases hc with
  | logAll => exact still (Adds.logAll ..) (by simp) rfl rfl rfl rfl rfl rfl rfl
  | report message =>
    have hf := s.report_frame .warning message
    exact still (Adds.report ..) (by simp) (by rw [hf]) (by rw [hf]) (by rw [hf]) (by rw [hf])
      (by rw [hf]) (by rw [hf]) (by rw [hf])
  | tell c hc =>
    have ha : Adds [.plain] s (s.call c) :=
      Adds.call _ _ (by cases c <;> simp_all [kind, Call.isPlain])
    exact still ha (by simp) rfl rfl rfl rfl rfl rfl rfl
  | edit cause start stop text hc =>
    have ha : Adds [.plain] s (s.edit cause start stop text) :=
      Adds.one rfl (by cases cause <;> simp_all [kind, EditCause.isPlain])
    exact still ha (by simp) rfl rfl rfl rfl rfl rfl rfl
  | armCompletion => exact still (Adds.log ..) (by simp) rfl rfl rfl rfl rfl rfl rfl
  | armSignatureHelp => exact still (Adds.log ..) (by simp) rfl rfl rfl rfl rfl rfl rfl
  | elapse ms => exact (elapse_silent s ms).coherent h h.bindings
  | registerCommand => exact registerCommand_coherent h ..
  | giveUpRound => exact giveUpRound_coherent h _
  | openRound _ hs => exact openRound_coherent h _ hs
  | cancelSignatureRound => exact cancelSignatureRound_coherent h
  | openSignatureRound => exact openSignatureRound_coherent h _
  | takeSignature place _ server reply => exact takeSignature_coherent (discard_coherent h place) ..
  | sendCommand => exact sendCommand_coherent h ..
  | answer => exact answer_coherent h ..
  | discard => exact discard_coherent h _
  | _ =>
    have ha {u : Session} (hu : u.trace = s.trace) : Adds [] s u := .of_eq hu
    exact still (ha rfl) (by simp) rfl rfl rfl rfl rfl rfl rfl

theorem TextChange.coherent {s t : Session} (hc : TextChange s t) (h : Coherent s) :
    Coherent t := by
  have edit (cause : EditCause) (start stop : Cursor) (text : List Char) {u : Session}
      (hu : Coherent u) : Coherent (u.edit cause start stop text) := by
    have ha : Adds [.plain, .text] u (u.edit cause start stop text) :=
      Adds.one rfl (by cases cause <;> simp [kind])
    exact (ha.silent (by simp) rfl rfl rfl rfl rfl rfl).coherent hu hu.bindings
  cases hc with
  | supersedeResolve => exact supersedeResolve_coherent h
  | removeInsertedWord => exact edit _ _ _ _ h
  | sendResolve => exact sendResolve_coherent h _ _
  | takeUp place => exact (discard_coherent h place).dropResolve
  | conclude payload expanded =>
    have ha : Adds [.plain] s
        (s.emit (.itemAccepted payload.server payload.item.label expanded)) :=
      Adds.emit _ _ (by simp [kind])
    exact (ha.silent (by simp) rfl rfl rfl rfl rfl rfl).coherent h h.bindings
  | expand e =>
    unfold Session.expand
    split
    · split
      next engine _ =>
        have ha : Adds [.plain, .text] s (s.call (.expand engine.name e.snippet)) :=
          Adds.call _ _ (by simp [kind])
        have hcall := (ha.silent (by simp) rfl rfl rfl rfl rfl rfl).coherent h h.bindings
        exact (Change.log ..).coherent hcall
      · exact edit _ _ _ _ ((Change.report ..).coherent h)
    · exact edit _ _ _ _ h

theorem RoundChange.coherent {s t : Session} (hc : RoundChange s t) (h : Coherent s) :
    Coherent t := by
  cases hc with
  | attach => exact attach_coherent h ..
  | detach => exact detach_coherent h _
  | takeCompletion place number server id reply hm hl => exact takeCompletion_coherent h hm hl

theorem after_coherent (setup : Setup) (actions : List Action) :
    Coherent (setup.session.after actions) :=
  after_induction (fun _ _ hc h => hc.coherent h) (fun _ _ hc h => hc.coherent h)
    (fun _ _ hc h => hc.coherent h) (coherent_setup setup) actions

end Autocomplete.Session
