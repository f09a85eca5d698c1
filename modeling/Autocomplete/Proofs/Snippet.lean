import Autocomplete.Session.Acceptance
import Autocomplete.Session.Setup

/-! How a snippet engine reads what is handed to it. A snippet is read from the left, piece by piece,
and each piece is as long as possible, so that the last one of a template may go on into the text that
follows it. What follows is escaped, and escaped text reads as it was; only where the template ends is
it possible that something else is read. -/
namespace Autocomplete

namespace Snippet

/-- What a snippet engine reads. -/
inductive Token where
  | literal (c : Char)
  | tabStop (digits : List Char)
  | variable (name : List Char)
  /-- The text between the braces of a placeholder, a choice or a transformation. -/
  | braced (content : List Char)
  deriving DecidableEq, Repr

/-- The characters of which names of variables are made. -/
def isName (c : Char) : Bool := c.isAlphanum || c == '_'

/-- The text up to the brace that closes a braced form, given how many more are open inside it. -/
def content? : Nat → List Char → Option (List Char)
  | depth, '\\' :: c :: rest => (content? depth rest).map fun text => '\\' :: c :: text
  | depth, '$' :: '\x7b' :: rest => (content? (depth + 1) rest).map fun text => '$' :: '\x7b' :: text
  | 0, '\x7d' :: _ => some []
  | depth + 1, '\x7d' :: rest => (content? depth rest).map fun text => '\x7d' :: text
  | depth, c :: rest => (content? depth rest).map fun text => c :: text
  | _, [] => none

/-- A braced form, from its opening brace. A dollar sign before anything else is literal. -/
def bracePiece : List Char → Token × Nat
  | '\x7b' :: inner =>
    match content? 0 inner with
    | some text => (.braced text, text.length + 2)
    | none => (.literal '$', 0)
  | _ => (.literal '$', 0)

/-- The piece that begins with a dollar sign, and how many more characters belong to it. -/
def dollarPiece (rest : List Char) : Token × Nat :=
  let digits := rest.takeWhile Char.isDigit
  let name := rest.takeWhile isName
  if digits = [] then
    if name = [] then bracePiece rest else (.variable name, name.length)
  else (.tabStop digits, digits.length)

/-- The piece that begins with a character, and how many more characters belong to it. -/
def piece (c : Char) (rest : List Char) : Token × Nat :=
  if c = '$' then dollarPiece rest
  else if c = '\\' then
    match rest with
    | d :: _ => if isSpecial d then (.literal d, 1) else (.literal '\\', 0)
    | [] => (.literal '\\', 0)
  else (.literal c, 0)

/-- Where pieces begin: the first character of each, with all that follows it. Of the text, the given
number of characters is passed over. -/
def startsFrom : Nat → List Char → List (Char × List Char)
  | _, [] => []
  | n + 1, _ :: rest => startsFrom n rest
  | 0, c :: rest => (c, rest) :: startsFrom (piece c rest).2 rest

def starts (text : List Char) : List (Char × List Char) := startsFrom 0 text

def tokens (text : List Char) : List Token := (starts text).map fun p => (piece p.1 p.2).1

/-- Whether a piece is no braced form that is left open. -/
def closes : Char × List Char → Bool
  | ('$', '\x7b' :: inner) => (content? 0 inner).isSome
  | _ => true

/-- All braced forms are closed. -/
def Closed (text : List Char) : Prop := ∀ p ∈ starts text, closes p = true

instance (text : List Char) : Decidable (Closed text) :=
  inferInstanceAs (Decidable (∀ p ∈ starts text, closes p = true))

/-- What the end of a template leaves open. -/
inductive Ending where
  | closed
  | digits
  | name
  | dollar
  | backslash
  deriving DecidableEq, Repr

/-- What is left open by a last piece that begins with a dollar sign. -/
def Token.ending : Token → Ending
  | .tabStop _ => .digits
  | .variable _ => .name
  | .braced _ => .closed
  | .literal _ => .dollar

/-- What is left open by the last piece. -/
def lastEnding (c : Char) (rest : List Char) : Ending :=
  if c = '$' then (dollarPiece rest).1.ending
  else if c = '\\' ∧ rest = [] then .backslash
  else .closed

def ending (text : List Char) : Ending :=
  match (starts text).getLast? with
  | some (c, rest) => lastEnding c rest
  | none => .closed

def BeginsWith (p : Char → Bool) (text : List Char) : Prop :=
  ∃ c rest, text = c :: rest ∧ p c = true

/-- What is left open goes on into the text that follows, and its first characters are not read as they
are. -/
def Ending.Absorbs : Ending → List Char → Prop
  | .closed, _ => False
  | .digits, text => BeginsWith Char.isDigit text
  | .name, text => BeginsWith isName text
  | .dollar, text => BeginsWith isName text
  | .backslash, text => ∃ n rest, text = List.replicate n '\\' ++ '$' :: rest ∧ BeginsWith isName rest

theorem startsFrom_eq_drop (n : Nat) (text : List Char) :
    startsFrom n text = starts (text.drop n) := by
  induction text generalizing n with
  | nil => cases n <;> simp [starts, startsFrom]
  | cons c rest ih =>
    cases n with
    | zero => rfl
    | succ n => simpa [startsFrom] using ih n

theorem starts_cons (c : Char) (rest : List Char) :
    starts (c :: rest) = (c, rest) :: starts (rest.drop (piece c rest).2) := by
  rw [← startsFrom_eq_drop]
  rfl

theorem tokens_nil : tokens [] = [] := rfl

theorem tokens_cons (c : Char) (rest : List Char) :
    tokens (c :: rest) = (piece c rest).1 :: tokens (rest.drop (piece c rest).2) := by
  rw [tokens, starts_cons]
  rfl

theorem ending_nil : ending [] = .closed := rfl

theorem ending_cons_last {c : Char} {rest : List Char} (h : rest.length ≤ (piece c rest).2) :
    ending (c :: rest) = lastEnding c rest := by
  rw [ending, starts_cons, List.drop_eq_nil_of_le h]
  rfl

theorem ending_cons {c : Char} {rest : List Char} (h : (piece c rest).2 < rest.length) :
    ending (c :: rest) = ending (rest.drop (piece c rest).2) := by
  have hne : rest.drop (piece c rest).2 ≠ [] := by
    intro he
    exact Nat.not_le_of_lt h (List.drop_eq_nil_iff.mp he)
  obtain ⟨d, more, hd⟩ := List.exists_cons_of_ne_nil hne
  rw [ending, starts_cons, hd, starts_cons, List.getLast?_cons_cons, ← starts_cons, ending]

theorem tokens_single {c : Char} {rest : List Char} (h : piece c rest = (.literal c, 0)) :
    tokens (c :: rest) = .literal c :: tokens rest := by
  rw [tokens_cons, h]
  rfl

theorem Closed.drop {c : Char} {rest : List Char} (h : Closed (c :: rest)) :
    Closed (rest.drop (piece c rest).2) := by
  intro p hp
  apply h p
  rw [starts_cons]
  exact List.mem_cons_of_mem _ hp

section
variable {rest : List Char}

theorem dollarPiece_digits (hd : rest.takeWhile Char.isDigit ≠ []) : dollarPiece rest =
    (.tabStop (rest.takeWhile Char.isDigit), (rest.takeWhile Char.isDigit).length) := by
  simp [dollarPiece, hd]

theorem dollarPiece_name (hd : rest.takeWhile Char.isDigit = [])
    (hn : rest.takeWhile isName ≠ []) : dollarPiece rest =
    (.variable (rest.takeWhile isName), (rest.takeWhile isName).length) := by
  simp [dollarPiece, hd, hn]

theorem dollarPiece_brace (hd : rest.takeWhile Char.isDigit = [])
    (hn : rest.takeWhile isName = []) : dollarPiece rest = bracePiece rest := by
  simp [dollarPiece, hd, hn]

end

theorem escape_cons_special {c : Char} (h : isSpecial c = true) (text : List Char) :
    escape (c :: text) = '\\' :: c :: escape text := by simp [escape, h]

theorem escape_cons {c : Char} (h : isSpecial c = false) (text : List Char) :
    escape (c :: text) = c :: escape text := by simp [escape, h]

theorem special_cases {c : Char} (h : isSpecial c = true) : c = '\\' ∨ c = '$' ∨ c = '\x7d' := by
  simpa [isSpecial, or_assoc] using h

theorem not_special_of_name {c : Char} (h : isName c = true) : isSpecial c = false := by
  rw [Bool.eq_false_iff]
  intro hs
  rcases special_cases hs with rfl | rfl | rfl <;> exact absurd h (by decide)

theorem name_of_digit {c : Char} (h : c.isDigit = true) : isName c = true := by
  simp [isName, Char.isAlphanum, h]

theorem content?_cons {c : Char} (h : isSpecial c = false) (depth : Nat) (rest : List Char) :
    content? depth (c :: rest) = (content? depth rest).map fun text => c :: text := by
  rw [content?]
  all_goals
    intros
    subst_vars
    contradiction

/-- Escaped text closes no brace. -/
theorem content?_escape (depth : Nat) (text : List Char) : content? depth (escape text) = none := by
  induction text with
  | nil => cases depth <;> rfl
  | cons c text ih =>
    cases h : isSpecial c with
    | true => rw [escape_cons_special h, content?, ih, Option.map_none]
    | false => rw [escape_cons h, content?_cons h, ih, Option.map_none]

theorem piece_of_not_special {c : Char} (h : isSpecial c = false) (rest : List Char) :
    piece c rest = (.literal c, 0) := by
  unfold piece
  rw [if_neg, if_neg]
  · rintro rfl
    cases h
  · rintro rfl
    cases h

theorem piece_escaped {c : Char} (h : isSpecial c = true) (rest : List Char) :
    piece '\\' (c :: rest) = (.literal c, 1) := by
  simp [piece, h]

theorem tokens_escaped {c : Char} (h : isSpecial c = true) (rest : List Char) :
    tokens ('\\' :: c :: rest) = .literal c :: tokens rest := by
  rw [tokens_cons, piece_escaped h]
  rfl

/-- Escaped text reads as it was. -/
theorem tokens_escape (text : List Char) : tokens (escape text) = text.map .literal := by
  induction text with
  | nil => rfl
  | cons c text ih =>
    rw [List.map_cons, ← ih]
    cases h : isSpecial c with
    | true => rw [escape_cons_special h, tokens_escaped h]
    | false => rw [escape_cons h, tokens_single (piece_of_not_special h _)]

theorem takeWhile_escape_eq_nil_iff {p : Char → Bool} (hp : ∀ c, p c = true → isName c = true)
    (text : List Char) : (escape text).takeWhile p = [] ↔ ¬ BeginsWith p text := by
  cases text with
  | nil =>
    constructor
    · rintro _ ⟨c, rest, h, _⟩
      cases h
    · exact fun _ => rfl
  | cons c text =>
    have hbegins : BeginsWith p (c :: text) ↔ p c = true := by
      constructor
      · rintro ⟨d, rest, h, hd⟩
        obtain ⟨rfl, _⟩ := List.cons.inj h
        exact hd
      · exact fun h => ⟨c, text, rfl, h⟩
    rw [hbegins]
    cases h : isSpecial c with
    | true =>
      have hno (d : Char) (hd : isSpecial d = true) : ¬ p d = true := by
        intro hpd
        rw [not_special_of_name (hp d hpd)] at hd
        cases hd
      rw [escape_cons_special h, List.takeWhile_cons_of_neg (hno '\\' rfl)]
      simpa using hno c h
    | false =>
      rw [escape_cons h, List.takeWhile_cons]
      split <;> simp_all

theorem content?_append {depth : Nat} {text found : List Char} (h : content? depth text = some found)
    (more : List Char) : content? depth (text ++ more) = some found := by
  fun_induction content? depth text generalizing found with
  | case1 depth c rest ih =>
    obtain ⟨inner, hi, rfl⟩ := Option.map_eq_some_iff.mp h
    rw [List.cons_append, List.cons_append, content?, ih hi, Option.map_some]
  | case2 depth rest ih =>
    obtain ⟨inner, hi, rfl⟩ := Option.map_eq_some_iff.mp h
    rw [List.cons_append, List.cons_append, content?, ih hi, Option.map_some]
  | case3 rest =>
    obtain rfl := Option.some.inj h
    rfl
  | case4 depth rest ih =>
    obtain ⟨inner, hi, rfl⟩ := Option.map_eq_some_iff.mp h
    rw [List.cons_append, content?, ih hi, Option.map_some]
  | case5 depth c rest hescape hopen hclose hcloses ih =>
    obtain ⟨inner, hi, rfl⟩ := Option.map_eq_some_iff.mp h
    cases rest with
    | nil => cases depth <;> cases hi
    | cons d rest =>
      have hmore := ih hi
      rw [List.cons_append, content?, hmore, Option.map_some]
      · intro _ _ hc _
        exact hescape d rest hc rfl
      · intro _ hc hd
        rw [(List.cons.inj hd).1] at hopen
        exact hopen rest hc rfl
      · exact hclose
      · exact hcloses
  | case6 => cases h

theorem length_of_content? {depth : Nat} {text found : List Char}
    (h : content? depth text = some found) : found.length < text.length := by
  fun_induction content? depth text generalizing found with
  | case3 rest =>
    obtain rfl := Option.some.inj h
    simp
  | case6 => cases h
  | _ =>
    rename_i ih
    obtain ⟨inner, hi, rfl⟩ := Option.map_eq_some_iff.mp h
    have := ih hi
    simp only [List.length_cons]
    omega

theorem bracePiece_cases (rest : List Char) :
    bracePiece rest = (.literal '$', 0) ∨ ∃ text, (bracePiece rest).1 = .braced text := by
  unfold bracePiece
  split
  · split
    next text _ => exact .inr ⟨text, rfl⟩
    next => exact .inl rfl
  · exact .inl rfl

theorem bracePiece_length_le (rest : List Char) : (bracePiece rest).2 ≤ rest.length := by
  unfold bracePiece
  split
  next inner =>
    split
    next found hf =>
      have := length_of_content? hf
      simp only [List.length_cons]
      omega
    next => exact Nat.zero_le _
  next => exact Nat.zero_le _

theorem piece_length_le (c : Char) (rest : List Char) : (piece c rest).2 ≤ rest.length := by
  unfold piece dollarPiece
  split
  · dsimp only
    split
    · split
      · exact bracePiece_length_le rest
      · exact (List.takeWhile_prefix _).length_le
    · exact (List.takeWhile_prefix _).length_le
  · split
    · split
      · split
        · simp
        · exact Nat.zero_le _
      · exact Nat.zero_le _
    · exact Nat.zero_le _

theorem bracePiece_append {rest : List Char} (hne : rest ≠ [])
    (hclosed : ∀ inner, rest = '\x7b' :: inner → (content? 0 inner).isSome = true)
    (more : List Char) : bracePiece (rest ++ more) = bracePiece rest := by
  cases rest with
  | nil => exact absurd rfl hne
  | cons d rest =>
    rw [List.cons_append]
    unfold bracePiece
    split
    next inner heq =>
      obtain ⟨rfl, rfl⟩ := List.cons.inj heq
      obtain ⟨found, hf⟩ := Option.isSome_iff_exists.mp (hclosed rest rfl)
      simp only [content?_append hf more, hf]
    next hno =>
      split
      next inner heq =>
        obtain ⟨rfl, rfl⟩ := List.cons.inj heq
        exact absurd rfl (hno _)
      next => rfl

theorem takeWhile_append_of_lt {p : Char → Bool} {rest : List Char}
    (h : (rest.takeWhile p).length < rest.length) (more : List Char) :
    (rest ++ more).takeWhile p = rest.takeWhile p := by
  rw [List.takeWhile_append, if_neg (Nat.ne_of_lt h)]

/-- Only the last piece may go on into what follows. -/
theorem dollarPiece_append {rest : List Char} (hclosed : Closed ('$' :: rest))
    (h : (dollarPiece rest).2 < rest.length ∨ lastEnding '$' rest = .closed) (more : List Char) :
    dollarPiece (rest ++ more) = dollarPiece rest := by
  have hlast : lastEnding '$' rest = (dollarPiece rest).1.ending := if_pos rfl
  by_cases hd : rest.takeWhile Char.isDigit = []
  · by_cases hn : rest.takeWhile isName = []
    · have hpiece := dollarPiece_brace hd hn
      have hne : rest ≠ [] := by
        rintro rfl
        rcases h with h | h <;> cases h
      have hpos : 0 < rest.length := List.length_pos_iff.mpr hne
      have hd' := takeWhile_append_of_lt (p := Char.isDigit) (by rw [hd]; exact hpos) more
      have hn' := takeWhile_append_of_lt (p := isName) (by rw [hn]; exact hpos) more
      have hclosing (inner : List Char) (hi : rest = '\x7b' :: inner) :
          (content? 0 inner).isSome = true := by
        apply hclosed ('$', '\x7b' :: inner)
        rw [starts_cons, hi]
        exact List.mem_cons_self
      rw [dollarPiece_brace (hd'.trans hd) (hn'.trans hn), hpiece, bracePiece_append hne hclosing]
    · have hpiece := dollarPiece_name hd hn
      rw [hlast, hpiece] at h
      have hlt := h.resolve_right nofun
      have hpos : 0 < rest.length := Nat.lt_of_le_of_lt (Nat.zero_le _) hlt
      have hd' := takeWhile_append_of_lt (p := Char.isDigit) (by rw [hd]; exact hpos) more
      have hn' := takeWhile_append_of_lt (p := isName) hlt more
      rw [dollarPiece_name (hd'.trans hd) (by rwa [hn']), hn', hpiece]
  · have hpiece := dollarPiece_digits hd
    rw [hlast, hpiece] at h
    have hlt := h.resolve_right nofun
    have hd' := takeWhile_append_of_lt (p := Char.isDigit) hlt more
    rw [dollarPiece_digits (by rwa [hd']), hd', hpiece]

theorem piece_append {c : Char} {rest : List Char} (hclosed : Closed (c :: rest))
    (h : (piece c rest).2 < rest.length ∨ lastEnding c rest = .closed) (more : List Char) :
    piece c (rest ++ more) = piece c rest := by
  by_cases hdollar : c = '$'
  · subst hdollar
    exact dollarPiece_append hclosed h more
  · by_cases hslash : c = '\\'
    · subst hslash
      cases rest with
      | nil => rcases h with h | h <;> cases h
      | cons d rest => rfl
    · simp only [piece, hdollar, hslash, if_false]

theorem bracePiece_escape (text : List Char) : bracePiece (escape text) = (.literal '$', 0) := by
  cases text with
  | nil => rfl
  | cons c text =>
    cases h : isSpecial c with
    | true =>
      rw [escape_cons_special h]
      rfl
    | false =>
      rw [escape_cons h]
      unfold bracePiece
      split
      next inner heq =>
        obtain ⟨-, rfl⟩ := List.cons.inj heq
        rw [content?_escape]
      next => rfl

theorem BeginsWith.mono {p q : Char → Bool} (hpq : ∀ c, p c = true → q c = true) {text : List Char}
    (h : BeginsWith p text) : BeginsWith q text := by
  obtain ⟨c, rest, he, hc⟩ := h
  exact ⟨c, rest, he, hpq c hc⟩

/-- A dollar sign that is read as its own takes a digit or a name from what follows. -/
theorem tokens_dollar_escape_iff (text : List Char) :
    tokens ('$' :: escape text) = .literal '$' :: text.map .literal ↔ ¬ BeginsWith isName text := by
  have hdigits := takeWhile_escape_eq_nil_iff (p := Char.isDigit) (fun _ => name_of_digit) text
  have hname := takeWhile_escape_eq_nil_iff (p := isName) (fun _ => id) text
  have hpiece : piece '$' (escape text) = dollarPiece (escape text) := rfl
  by_cases hb : BeginsWith isName text
  · have hn : (escape text).takeWhile isName ≠ [] := fun h => hname.mp h hb
    have hfirst : (dollarPiece (escape text)).1 ≠ .literal '$' := by
      unfold dollarPiece
      dsimp only
      rw [if_neg hn]
      split <;> nofun
    rw [tokens_cons, hpiece]
    simp [hfirst, hb]
  · have hd : (escape text).takeWhile Char.isDigit = [] :=
      hdigits.mpr fun h => hb (h.mono fun _ => name_of_digit)
    have hsingle : dollarPiece (escape text) = (.literal '$', 0) := by
      unfold dollarPiece
      dsimp only
      rw [if_pos hd, if_pos (hname.mpr hb), bracePiece_escape]
    rw [tokens_single (hpiece.trans hsingle), tokens_escape]
    simp [hb]

theorem absorbs_backslash_cons (text : List Char) :
    Ending.backslash.Absorbs ('\\' :: text) ↔ Ending.backslash.Absorbs text := by
  constructor
  · rintro ⟨n, rest, h, hr⟩
    cases n with
    | zero => cases h
    | succ n => exact ⟨n, rest, (List.cons.inj h).2, hr⟩
  · rintro ⟨n, rest, rfl, hr⟩
    exact ⟨n + 1, rest, rfl, hr⟩

theorem absorbs_dollar_cons (text : List Char) :
    Ending.backslash.Absorbs ('$' :: text) ↔ BeginsWith isName text := by
  constructor
  · rintro ⟨n, rest, h, hr⟩
    cases n with
    | zero => exact (List.cons.inj h).2 ▸ hr
    | succ n => cases h
  · exact fun h => ⟨0, text, rfl, h⟩

theorem not_absorbs_backslash {c : Char} (hslash : c ≠ '\\') (hdollar : c ≠ '$') (text : List Char) :
    ¬ Ending.backslash.Absorbs (c :: text) := by
  rintro ⟨n, rest, h, _⟩
  cases n with
  | zero => exact hdollar (List.cons.inj h).1
  | succ n => exact hslash (List.cons.inj h).1

/-- A backslash turns the meaning of every second one after it around, and in the end that of a dollar
sign. -/
theorem tokens_backslash_escape_iff (text : List Char) :
    tokens ('\\' :: escape text) = .literal '\\' :: text.map .literal ↔
      ¬ Ending.backslash.Absorbs text := by
  induction text with
  | nil =>
    have hno : ¬ Ending.backslash.Absorbs [] := by
      rintro ⟨n, rest, h, _⟩
      cases n <;> cases h
    simp only [hno, not_false_eq_true, iff_true]
    rfl
  | cons c text ih =>
    cases h : isSpecial c with
    | false =>
      have hslash : c ≠ '\\' := by
        rintro rfl
        cases h
      have hdollar : c ≠ '$' := by
        rintro rfl
        cases h
      have hsingle : piece '\\' (escape (c :: text)) = (.literal '\\', 0) := by
        rw [escape_cons h]
        simp [piece, h]
      simp [tokens_single hsingle, tokens_escape, not_absorbs_backslash hslash hdollar]
    | true =>
      rw [escape_cons_special h, tokens_escaped (c := '\\') rfl, List.map_cons, List.cons.injEq]
      simp only [true_and]
      rcases special_cases h with rfl | rfl | rfl
      · rw [ih, absorbs_backslash_cons]
      · rw [tokens_dollar_escape_iff, absorbs_dollar_cons]
      · have hno := not_absorbs_backslash (c := '\x7d') (by decide) (by decide) text
        rw [tokens_single (by rfl), tokens_escape]
        simp [hno]

theorem takeWhile_eq_self_of_le {p : Char → Bool} {rest : List Char}
    (h : rest.length ≤ (rest.takeWhile p).length) : rest.takeWhile p = rest :=
  (List.takeWhile_prefix p).eq_of_length_le h

/-- A digit or a name at the end of a template takes more of its kind from what follows. -/
theorem tokens_run_iff {p : Char → Bool} (hp : ∀ c, p c = true → isName c = true)
    {make : List Char → Token} (hmake : ∀ a b, make a = make b → a = b) {rest text : List Char}
    (hpiece : piece '$' (rest ++ escape text) = (make ((rest ++ escape text).takeWhile p),
      ((rest ++ escape text).takeWhile p).length))
    (hall : rest.takeWhile p = rest) :
    tokens ('$' :: (rest ++ escape text)) = make rest :: text.map .literal ↔
      ¬ BeginsWith p text := by
  have hrun : (rest ++ escape text).takeWhile p = rest ++ (escape text).takeWhile p := by
    rw [List.takeWhile_append, if_pos (by rw [hall])]
  have hnil := takeWhile_escape_eq_nil_iff hp text
  rw [tokens_cons, hpiece, hrun]
  by_cases hb : BeginsWith p text
  · have hne : (escape text).takeWhile p ≠ [] := fun h => hnil.mp h hb
    have hfirst : make (rest ++ (escape text).takeWhile p) ≠ make rest := by
      intro h
      exact hne (List.append_right_eq_self.mp (hmake _ _ h))
    simp [hfirst, hb]
  · rw [hnil.mpr hb, List.append_nil, List.drop_left, tokens_escape]
    simp [hb]

/-- What the last piece of a template leaves open decides how the text after it is read. -/
theorem tokens_last_iff {c : Char} {rest : List Char} (hclosed : Closed (c :: rest))
    (hlast : rest.length ≤ (piece c rest).2) (text : List Char) :
    tokens (c :: (rest ++ escape text)) = (piece c rest).1 :: text.map .literal ↔
      ¬ (lastEnding c rest).Absorbs text := by
  by_cases hend : lastEnding c rest = .closed
  · have hlen : (piece c rest).2 = rest.length := Nat.le_antisymm (piece_length_le c rest) hlast
    rw [tokens_cons, piece_append hclosed (.inr hend), hlen, List.drop_left, tokens_escape, hend]
    simp [Ending.Absorbs]
  · by_cases hdollar : c = '$'
    · subst hdollar
      change rest.length ≤ (dollarPiece rest).2 at hlast
      change ¬ (dollarPiece rest).1.ending = .closed at hend
      change _ = (dollarPiece rest).1 :: _ ↔ ¬ (dollarPiece rest).1.ending.Absorbs text
      by_cases hd : rest.takeWhile Char.isDigit = []
      · by_cases hn : rest.takeWhile isName = []
        · rw [dollarPiece_brace hd hn] at hlast hend ⊢
          rcases bracePiece_cases rest with h | ⟨inner, h⟩
          · rw [h] at hlast ⊢
            obtain rfl := List.length_eq_zero_iff.mp (Nat.le_zero.mp hlast)
            exact tokens_dollar_escape_iff text
          · rw [h] at hend
            exact absurd rfl hend
        · rw [dollarPiece_name hd hn] at hlast ⊢
          have hall := takeWhile_eq_self_of_le hlast
          have hlt : (rest.takeWhile Char.isDigit).length < rest.length := by
            rw [hd]
            exact List.length_pos_iff.mpr fun h => hn (hall.trans h)
          have hd' := takeWhile_append_of_lt hlt (escape text)
          have hn' : (rest ++ escape text).takeWhile isName ≠ [] := by
            rw [List.takeWhile_append, if_pos (by rw [hall])]
            exact fun h => hn (hall.trans (List.append_eq_nil_iff.mp h).1)
          have hrun := tokens_run_iff (fun _ => id) (fun a b => Token.variable.inj)
            (dollarPiece_name (hd'.trans hd) hn') hall
          rwa [hall]
      · rw [dollarPiece_digits hd] at hlast ⊢
        have hall := takeWhile_eq_self_of_le hlast
        have hd' : (rest ++ escape text).takeWhile Char.isDigit ≠ [] := by
          rw [List.takeWhile_append, if_pos (by rw [hall])]
          exact fun h => hd (hall.trans (List.append_eq_nil_iff.mp h).1)
        have hrun := tokens_run_iff (fun _ => name_of_digit) (fun a b => Token.tabStop.inj)
          (dollarPiece_digits hd') hall
        rwa [hall]
    · have hslash : c = '\\' ∧ rest = [] := by
        simpa [lastEnding, hdollar] using hend
      obtain ⟨rfl, rfl⟩ := hslash
      exact tokens_backslash_escape_iff text

/-- The text after a template is read as it is, unless the end of the template absorbs it. -/
theorem tokens_append_escape_iff {template : List Char} (hclosed : Closed template)
    (text : List Char) :
    tokens (template ++ escape text) = tokens template ++ text.map .literal ↔
      ¬ (ending template).Absorbs text := by
  induction hn : template.length using Nat.strongRecOn generalizing template with
  | ind n ih =>
    cases template with
    | nil =>
      rw [List.nil_append, tokens_escape]
      simp [tokens_nil, ending_nil, Ending.Absorbs]
    | cons c rest =>
      by_cases hlast : rest.length ≤ (piece c rest).2
      · rw [tokens_cons, List.drop_eq_nil_of_le hlast, ending_cons_last hlast]
        exact tokens_last_iff hclosed hlast text
      · have hlt := Nat.lt_of_not_le hlast
        have hdrop : (rest.drop (piece c rest).2).length < n := by
          rw [List.length_drop, ← hn, List.length_cons]
          omega
        rw [List.cons_append, tokens_cons, piece_append hclosed (.inl hlt),
          List.drop_append_of_le_length (Nat.le_of_lt hlt), tokens_cons, List.cons_append,
          List.cons.injEq, ending_cons hlt, ← ih _ hdrop hclosed.drop rfl]
        simp

end Snippet

theorem Expansion.snippet_toList (e : Expansion) :
    e.snippet.toList = e.template.toList ++ Snippet.escape e.suffix := by
  simp [snippet]

namespace Session
open Snippet

/-- An engine that is available while text is typed is handed the template and then the rest of the
line. It reads the rest of the line as it was exactly if the end of the template does not absorb the
beginning of it. -/
theorem expand_keepsSuffix_iff (s : Session) (e : Expansion) {engine : SnippetEngine} :
    s.buffer.inserting = true → s.availableEngine? = some engine → Closed e.template.toList →
    (∃ records : List LogRecord, (s.expand e).1.trace =
      s.trace ++ .call (.expand engine.name e.snippet) :: records.map .log) ∧
    (Snippet.tokens e.snippet.toList =
        Snippet.tokens e.template.toList ++ e.suffix.map Token.literal ↔
      ¬ (ending e.template.toList).Absorbs e.suffix) := by
  intro hinserting hengine hclosed
  constructor
  · refine ⟨[⟨.debug, "quill_completion::accept", "Expanded snippet",
      [("engine", .str engine.name)]⟩], ?_⟩
    rw [expand, if_pos hinserting, hengine]
    simp [call, log]
  · rw [e.snippet_toList]
    exact tokens_append_escape_iff hclosed e.suffix

/-- A session with a snippet engine, and two templates with what follows them. -/
def bareTabStop : Setup × Expansion × Expansion :=
  ({ config := {}, uri := "file:///a", lines := [[]], cursor := ⟨0, 0⟩, missing := [],
     signatureView := false, snippets := [⟨"ultisnips", true⟩], matcher := ⟨fun _ _ => true⟩,
     commands := none, cancellable := true },
   ⟨"foo($1)", [], [')']⟩, ⟨"foo$1", [], ['2', ')']⟩)

/-- A bracket after a bracket is read as it is; a digit after a bare tab stop belongs to it. -/
theorem expand_keepsSuffix_iff_bareTabStop :
    let s := bareTabStop.1.session
    let kept := bareTabStop.2.1
    let absorbed := bareTabStop.2.2
    (∃ records : List LogRecord, (s.expand absorbed).1.trace =
      s.trace ++ .call (.expand "ultisnips" absorbed.snippet) :: records.map .log) ∧
    Snippet.tokens kept.snippet.toList =
      Snippet.tokens kept.template.toList ++ [Token.literal ')'] ∧
    Snippet.tokens absorbed.snippet.toList ≠
      Snippet.tokens absorbed.template.toList ++ [Token.literal '2', Token.literal ')'] := by
  intro s kept absorbed
  have hengine : s.availableEngine? = some ⟨"ultisnips", true⟩ := rfl
  have hkept := expand_keepsSuffix_iff s kept rfl hengine (by decide +kernel)
  have habsorbed := expand_keepsSuffix_iff s absorbed rfl hengine (by decide +kernel)
  have hclosed : ending kept.template.toList = .closed := by decide +kernel
  have hdigits : ending absorbed.template.toList = .digits := by decide +kernel
  refine ⟨habsorbed.1, hkept.2.mpr ?_, ?_⟩
  · rw [hclosed]
    exact id
  · intro h
    apply habsorbed.2.mp h
    rw [hdigits]
    exact ⟨'2', [')'], rfl, rfl⟩

end Session
end Autocomplete
