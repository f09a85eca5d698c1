import Autocomplete.Proofs.Session.Trace
import Autocomplete.Proofs.Text.Columns

/-! Positions that are told to servers. Each server counts in code units of its own, and the
positions of one round of requests still stand for one place, the cursor. -/
namespace Autocomplete
open Text

/-- The value of a field of an object. -/
def Json.field? (name : String) : Json → Option Json
  | .obj fields => Fields.find? name fields
  | _ => none

/-- What a server makes of the position of a cursor. -/
theorem Position.toCursor_ofCursor {encoding : Encoding} {line : Line}
    (h : encoding.length line ≤ Encoding.maxOffset) (cursor : Cursor) :
    (Position.ofCursor encoding line cursor).toCursor encoding line =
      ⟨cursor.line, floorColumn line cursor.column⟩ := by
  simp only [ofCursor, toCursor, encoding.byteColumn_characterOffset h]

namespace Session
open Observation

theorem completionParams_position (s : Session) (trigger : Trigger) (b : Binding) :
    (s.completionParams trigger b).field? "position" =
      some (Position.ofCursor b.encoding s.buffer.currentLine s.buffer.cursor).encode := by
  simp [completionParams, documentPosition, Json.ofFields, Json.field?, Fields.find?,
    Fields.insert, Entries.find?_insert]

/-- While several servers are asked, neither the text nor the cursor changes. -/
theorem askAll_positions (id : RequestId) (trigger : Trigger) (s : Session) (bs : List Binding) :
    ∃ asks, (askAll (.completion id) (fun s b => s.completionParams trigger b) s bs).1.trace =
        s.trace ++ asks ∧
      ∀ o ∈ asks, ∃ b ∈ bs, ∃ n params,
        o = .call (.request n b.server .completion params) ∧ params.field? "position" =
          some (Position.ofCursor b.encoding s.buffer.currentLine s.buffer.cursor).encode := by
  induction bs generalizing s with
  | nil => exact ⟨[], by simp [askAll], by simp⟩
  | cons b bs ih =>
    have hf := s.send_frame b.server (.completion id) (s.completionParams trigger b)
    obtain ⟨asks, htrace, hasks⟩ :=
      ih (s.send b.server (.completion id) (s.completionParams trigger b)).1
    have hbuffer : (s.send b.server (.completion id) (s.completionParams trigger b)).1.buffer =
        s.buffer := by rw [hf]
    refine ⟨.call (.request s.requests.length b.server .completion
      (s.completionParams trigger b)) :: asks, ?_, ?_⟩
    · change (askAll _ _ (s.send _ _ _).1 bs).1.trace = _
      rw [htrace, hf]
      simp [Purpose.method]
    · intro o ho
      rcases List.mem_cons.mp ho with rfl | ho
      · exact ⟨b, by simp, _, _, rfl, s.completionParams_position trigger b⟩
      · obtain ⟨d, hd, n, params, hcall, hposition⟩ := hasks o ho
        rw [hbuffer] at hposition
        exact ⟨d, by simp [hd], n, params, hcall, hposition⟩

/-- The completion requests among some observations go to servers that are attached, and their
position is that of the cursor, counted as the server counts. -/
def AsksAtCursor (s : Session) (news : List Observation) : Prop :=
  ∀ n server params, .call (.request n server .completion params) ∈ news →
    ∃ b ∈ s.bindings.values, b.server = server ∧ params.field? "position" =
      some (Position.ofCursor b.encoding s.buffer.currentLine s.buffer.cursor).encode

theorem openRound_asksAtCursor (s : Session) (trigger : Trigger) :
    ∃ news, (s.openRound trigger).trace = s.trace ++ news ∧ s.AsksAtCursor news := by
  obtain ⟨asks, htrace, hasks⟩ := askAll_positions s.lastId.next trigger
    { s with lastId := s.lastId.next } (s.bindings.values.filter (·.completes))
  have hopened : Adds [.plain, .opened]
      (askAll (.completion s.lastId.next) (fun s b => s.completionParams trigger b)
        { s with lastId := s.lastId.next } (s.bindings.values.filter (·.completes))).1
      (s.openRound trigger) := by
    unfold openRound
    extract_lets cursor id t
    split
    next u asked hu =>
    change Adds _ (askAll (.completion id) _ t (t.bindings.values.filter (·.completes))).1 _
    rw [hu]
    split
    · exact (Adds.log ..).mono (by simp)
    · extract_lets tracked v w pending round
      have hw : Adds [.plain] u w := Adds.log v ..
      exact (hw.mono (by simp)).trans (.emit _ _ (by simp [kind]))
  obtain ⟨rest, hrest, hkinds⟩ := hopened
  refine ⟨asks ++ rest, by rw [hrest, htrace, List.append_assoc], ?_⟩
  intro n server params hm
  rcases List.mem_append.mp hm with hm | hm
  · obtain ⟨b, hb, k, json, hcall, hposition⟩ := hasks _ hm
    obtain ⟨rfl, rfl, rfl⟩ : n = k ∧ server = b.server ∧ params = json := by simpa using hcall
    exact ⟨b, (List.mem_filter.mp hb).1, rfl, hposition⟩
  · have hkind := hkinds _ hm
    simp [kind] at hkind

theorem startRound_asksAtCursor (s : Session) (trigger : Trigger) :
    ∃ news, (s.startRound trigger).trace = s.trace ++ news ∧ s.AsksAtCursor news := by
  obtain ⟨given, hgiven, hkinds⟩ := Adds.giveUpRound s .newRequest
  obtain ⟨opened, hopened, hasks⟩ := (s.giveUpRound .newRequest).openRound_asksAtCursor trigger
  refine ⟨given ++ opened, ?_, ?_⟩
  · rw [startRound, hopened, hgiven, List.append_assoc]
  · intro n server params hm
    rcases List.mem_append.mp hm with hm | hm
    · have hkind := hkinds _ hm
      simp [kind] at hkind
    · have hposition := hasks n server params hm
      rw [giveUpRound_frame] at hposition
      exact hposition

end Session

/-- In every encoding, columns and offsets are inverse to each other up to the boundaries between
characters and the end of the line, and offsets are put in order. All requests of a round have
positions that stand for one column, that of the cursor, however their servers count. -/
theorem positions_roundTrip (line : Line) :
    (∀ encoding : Encoding,
      (∀ n, IsBoundary line (encoding.byteColumn line n) ∧
        encoding.byteColumn line n ≤ byteLength line) ∧
      (∀ m n, m ≤ n → encoding.byteColumn line m ≤ encoding.byteColumn line n) ∧
      (encoding.length line ≤ Encoding.maxOffset →
        (∀ n, encoding.byteColumn line (encoding.characterOffset line n) = floorColumn line n) ∧
        (∀ u v, line = u ++ v →
          encoding.characterOffset line (encoding.byteColumn line (encoding.length u)) =
            encoding.length u) ∧
        ∀ n, encoding.length line ≤ n →
          encoding.characterOffset line (encoding.byteColumn line n) = encoding.length line)) ∧
    ∀ (s : Session) (trigger : Trigger), s.buffer.currentLine = line →
      ∃ news, (s.startRound trigger).trace = s.trace ++ news ∧
        ∀ n server params, .call (.request n server .completion params) ∈ news →
          ∃ b ∈ s.bindings.values, b.server = server ∧ ∃ p : Position,
            params.field? "position" = some p.encode ∧
            (b.encoding.length line ≤ Encoding.maxOffset →
              p.toCursor b.encoding line =
                ⟨s.buffer.cursor.line, floorColumn line s.buffer.cursor.column⟩) := by
  constructor
  · intro encoding
    have hboundary (n : Nat) : IsBoundary line (encoding.byteColumn line n) ∧
        encoding.byteColumn line n ≤ byteLength line :=
      ⟨encoding.isBoundary_byteColumn line n, encoding.byteColumn_le line n⟩
    refine ⟨hboundary, fun m n => encoding.byteColumn_mono line, fun h => ?_⟩
    refine ⟨encoding.byteColumn_characterOffset h, ?_, ?_⟩
    · rintro u v rfl
      rw [encoding.byteColumn_append, encoding.characterOffset_append h]
    · intro n hn
      rw [encoding.byteColumn_of_le hn, encoding.characterOffset_byteLength h]
  · rintro s trigger rfl
    obtain ⟨news, htrace, hasks⟩ := s.startRound_asksAtCursor trigger
    refine ⟨news, htrace, ?_⟩
    intro n server params hm
    obtain ⟨b, hb, hserver, hposition⟩ := hasks n server params hm
    exact ⟨b, hb, hserver, _, hposition, fun h => Position.toCursor_ofCursor h s.buffer.cursor⟩

/-- Servers that count in bytes, in UTF-16 and in characters, and a cursor behind a character that
is outside the basic plane. -/
def threeEncodings : Setup × List Action :=
  ({ config := {}, uri := "file:///a", lines := [['a', 'ä', '😀', 'b']], cursor := ⟨0, 7⟩,
     missing := [], signatureView := false, snippets := [], matcher := ⟨fun _ _ => true⟩,
     commands := none, cancellable := true },
   [.attach ⟨1⟩ { positionEncoding := some "utf-8", completion := some {} } {},
    .attach ⟨2⟩ { completion := some {} } {},
    .attach ⟨3⟩ { positionEncoding := some "utf-32", completion := some {} } {}])

/-- The servers are told of the offsets 7, 4 and 3. -/
theorem positions_roundTrip_threeEncodings :
    let s := threeEncodings.1.session.after threeEncodings.2
    let line := s.buffer.currentLine
    s.bindings.values.map (fun b => b.encoding.characterOffset line 7) = [7, 4, 3] ∧
    (∀ b ∈ s.bindings.values, b.encoding.length line ≤ Encoding.maxOffset ∧
      b.encoding.byteColumn line (b.encoding.characterOffset line 7) = floorColumn line 7) ∧
    ∃ news, (s.startRound .manual).trace = s.trace ++ news ∧
      ∀ n server params, .call (.request n server .completion params) ∈ news →
        ∃ b ∈ s.bindings.values, b.server = server ∧ ∃ p : Position,
          params.field? "position" = some p.encode ∧ p.toCursor b.encoding line = ⟨0, 7⟩ := by
  intro s line
  obtain ⟨hround, hasks⟩ := positions_roundTrip line
  have hlength : ∀ encoding : Encoding, encoding.length line ≤ Encoding.maxOffset := by
    intro encoding
    cases encoding <;> decide +kernel
  obtain ⟨news, htrace, hnews⟩ := hasks s .manual rfl
  have hcolumn (encoding : Encoding) :
      encoding.byteColumn line (encoding.characterOffset line 7) = floorColumn line 7 :=
    ((hround encoding).2.2 (hlength encoding)).1 7
  refine ⟨by decide +kernel, fun b _ => ⟨hlength _, hcolumn _⟩, news, htrace, ?_⟩
  intro n server params hm
  obtain ⟨b, hb, hserver, p, hposition, hcursor⟩ := hnews n server params hm
  refine ⟨b, hb, hserver, p, hposition, (hcursor (hlength _)).trans ?_⟩
  decide +kernel

end Autocomplete
