import Autocomplete.Merge
import Autocomplete.Proofs.Fuzzy
import Autocomplete.Proofs.Response
import Autocomplete.Proofs.Sorting
import Autocomplete.Proofs.Table
import Autocomplete.Proofs.Text.ByteOrder

/-! Merging loses, invents and misorders nothing. Every item that a server sent has a place, the matcher
is asked about the items in the order of their places, and the entries are those of the items that it
does not turn down, one for each place, in the order of their sort keys and then of their places. -/
namespace Autocomplete
open MergeRequest Text

/-- Where an item stands: the server that sent it, and its index in the list that was sent. -/
structure Place where
  server : ServerId
  index : Nat
  deriving DecidableEq

def Place.before (p q : Place) : Prop :=
  p.server < q.server ∨ p.server = q.server ∧ p.index < q.index

theorem Place.before_asymm {p q : Place} (h : p.before q) : ¬ q.before p := by
  rintro (hq | ⟨hs, hi⟩)
  · rcases h with hp | ⟨hs, _⟩
    · exact Std.lt_irrefl (Std.lt_trans hp hq)
    · exact Std.lt_irrefl (hs ▸ hq)
  · rcases h with hp | ⟨_, hj⟩
    · exact Std.lt_irrefl (hs ▸ hp)
    · exact Nat.lt_asymm hj hi

/-- The item at a place. There is none where a server sent an error, or something that is no item even
with the defaults. -/
def ItemAt (replies : ServerMap Reply) (p : Place) (item : Item) : Prop :=
  ∃ value, replies.find? p.server = some (.ok value) ∧ HasItem value p.index item

namespace MergeRequest

/-- Whether the entries of a server have to fit what was typed. -/
def isFiltered (bindings : ServerMap Binding) (server : ServerId) : Bool :=
  ((bindings.find? server).map (·.fuzzy)).getD false

/-- The bytes by which an entry is put in order. -/
def keyOf (m : Match) : List UInt8 := utf8 (m.item.sortText.getD m.item.label)

section
variable (request : MergeRequest) (replies : ServerMap Reply) (bindings : ServerMap Binding)
  (matcher : Matcher) (start : Nat)

/-- The entry for an item of a server. -/
def entryFor (server : ServerId) (item : Item) : Match :=
  .ofPayload ⟨server, item⟩ (isFiltered bindings server) (request.offset start)

/-- What the matcher is asked about an entry: nothing unless its server filters by itself and some text
was typed. -/
def question? (m : Match) : Option Question :=
  if isFiltered bindings m.server then
    match slice? request.line start request.cursorColumn with
    | some (c :: typed) => some ⟨String.ofList (c :: typed), m.item.filterText.getD m.word⟩
    | _ => none
  else none

/-- What the matcher is asked about some entries. -/
def questions (rows : List (Place × Match)) : List Question :=
  rows.filterMap fun row => request.question? bindings start row.2

/-- The entries for all items, each place once, in the order of the places. -/
structure Visits (visited : List (Place × Match)) : Prop where
  mem : ∀ p m, (p, m) ∈ visited ↔
    ∃ item, ItemAt replies p item ∧ m = request.entryFor bindings start p.server item
  order : visited.Pairwise fun a b => a.1.before b.1

/-- The matcher turns an entry down when it is asked about it, after those of the places before it. -/
def Rejected (visited : List (Place × Match)) (row : Place × Match) : Prop :=
  ∃ before after q, visited = before ++ row :: after ∧
    request.question? bindings start row.2 = some q ∧
    matcher.answer (request.questions bindings start before) q = false

/-- The entries that are not turned down, each place once, in the order in which they are shown. -/
structure Listing (visited rows : List (Place × Match)) : Prop where
  mem : ∀ row, row ∈ rows ↔ row ∈ visited ∧ ¬ request.Rejected bindings matcher start visited row
  order : rows.Pairwise fun a b =>
    keyOf a.2 < keyOf b.2 ∨ keyOf a.2 = keyOf b.2 ∧ a.1.before b.1

/-- The entries for the items of an answer. -/
def rowsOf : ServerId × Reply → List (Place × Match)
  | (server, .ok value) =>
    let list := (RawList.ofJson? value).getD {}
    list.items.zipIdx.filterMap fun (v, i) =>
      (Item.decode (list.complete v)).toOption.map fun item =>
        (⟨server, i⟩, request.entryFor bindings start server item)
  | (_, .error _) => []

/-- The entries for all items in the order in which they are visited. -/
def visits : List (Place × Match) := replies.entries.flatMap (request.rowsOf bindings start)

/-- An entry with what the matcher is asked about it. -/
def withQuestion (row : Place × Match) : (Place × Match) × Option Question :=
  (row, request.question? bindings start row.2)

/-- All entries with what the matcher is asked about them. -/
def asked : List ((Place × Match) × Option Question) :=
  (request.visits replies bindings start).map (request.withQuestion bindings start)

variable {request replies bindings matcher start}

theorem mem_rowsOf {server : ServerId} {reply : Reply} {p : Place} {m : Match} :
    (p, m) ∈ request.rowsOf bindings start (server, reply) ↔ p.server = server ∧
      ∃ value item, reply = .ok value ∧ HasItem value p.index item ∧
        m = request.entryFor bindings start server item := by
  cases reply with
  | error e => simp [rowsOf]
  | ok value =>
    simp only [rowsOf, List.mem_filterMap, Prod.exists, Option.map_eq_some_iff,
      List.mk_mem_zipIdx_iff_getElem?, Prod.mk.injEq, RawList.hasItem_iff]
    cases hl : RawList.ofJson? value with
    | none => simp [hl]
    | some list =>
      constructor
      · rintro ⟨v, i, hv, item, hi, rfl, rfl⟩
        exact ⟨rfl, value, item, rfl, ⟨list, v, hl, hv, hi⟩, rfl⟩
      · rintro ⟨rfl, _, item, hr, ⟨other, v, hs, hv, hi⟩, rfl⟩
        obtain rfl := Except.ok.inj hr
        obtain rfl := Option.some.inj (hl.symm.trans hs)
        exact ⟨v, p.index, hv, item, hi, rfl, rfl⟩

theorem mem_visits {p : Place} {m : Match} :
    (p, m) ∈ request.visits replies bindings start ↔
      ∃ item, ItemAt replies p item ∧ m = request.entryFor bindings start p.server item := by
  simp only [visits, List.mem_flatMap, Prod.exists, ← Table.find?_eq_some_iff, mem_rowsOf]
  constructor
  · rintro ⟨server, reply, hr, rfl, value, item, rfl, hi, rfl⟩
    exact ⟨item, ⟨value, hr, hi⟩, rfl⟩
  · rintro ⟨item, ⟨value, hr, hi⟩, rfl⟩
    exact ⟨p.server, .ok value, hr, rfl, value, item, rfl, hi, rfl⟩

theorem zipIdx_pairwise {α : Type} (l : List α) : l.zipIdx.Pairwise fun a b => a.2 < b.2 := by
  have h : (l.zipIdx.map Prod.snd).Pairwise (· < ·) := by
    rw [List.zipIdx_map_snd]
    exact List.pairwise_lt_range'
  exact List.pairwise_map.mp h

/-- All items are visited in the order of their places. -/
theorem visits_pairwise :
    (request.visits replies bindings start).Pairwise fun a b => a.1.before b.1 := by
  refine List.pairwise_flatMap.mpr ⟨?_, replies.ascending.imp ?_⟩
  · rintro ⟨server, reply⟩ _
    cases reply with
    | error e => exact List.Pairwise.nil
    | ok value =>
      refine List.Pairwise.filterMap _ ?_ (zipIdx_pairwise _)
      intro a b hab x hx y hy
      obtain ⟨_, _, rfl⟩ := Option.map_eq_some_iff.mp hx
      obtain ⟨_, _, rfl⟩ := Option.map_eq_some_iff.mp hy
      exact .inr ⟨rfl, hab⟩
  · rintro ⟨server, reply⟩ ⟨other, answer⟩ hlt ⟨p, m⟩ hp ⟨q, n⟩ hq
    obtain ⟨rfl, _⟩ := mem_rowsOf.mp hp
    obtain ⟨rfl, _⟩ := mem_rowsOf.mp hq
    exact .inl hlt

theorem visits_visits : request.Visits replies bindings start (request.visits replies bindings start) :=
  ⟨fun _ _ => mem_visits, visits_pairwise⟩

instance : Std.Irrefl fun a b : Place × Match => a.1.before b.1 :=
  ⟨fun _ h => Place.before_asymm h h⟩

instance : Std.Antisymm fun a b : Place × Match => a.1.before b.1 :=
  ⟨fun _ _ hab hba => (Place.before_asymm hab hba).elim⟩

theorem Visits.unique {visited others : List (Place × Match)}
    (h : request.Visits replies bindings start visited)
    (g : request.Visits replies bindings start others) : others = visited :=
  List.Pairwise.eq_of_mem_iff g.order h.order fun row =>
    (g.mem row.1 row.2).trans (h.mem row.1 row.2).symm

theorem Visits.nodup {visited : List (Place × Match)}
    (h : request.Visits replies bindings start visited) : visited.Nodup := by
  refine h.order.imp fun hab he => ?_
  subst he
  exact Place.before_asymm hab hab

theorem filterMap_withQuestion (rows : List (Place × Match)) :
    (rows.map (request.withQuestion bindings start)).filterMap (·.2) =
      request.questions bindings start rows := by
  rw [List.filterMap_map]
  rfl

theorem map_fst_asked : (request.asked replies bindings start).map (·.1) =
    request.visits replies bindings start := by
  rw [asked, List.map_map]
  exact List.map_id _

/-- The matcher keeps the entries that it does not turn down. -/
theorem mem_sift_asked {row : Place × Match} :
    row ∈ (matcher.sift (request.asked replies bindings start)).1 ↔
      row ∈ request.visits replies bindings start ∧
        ¬ request.Rejected bindings matcher start (request.visits replies bindings start) row := by
  rw [Matcher.mem_sift]
  constructor
  · rintro ⟨_, _, _, hsplit, rfl, hyes⟩
    obtain ⟨before, _, hvisits, rfl, hrest⟩ := List.map_eq_append_iff.mp hsplit
    obtain ⟨row, after, rfl, rfl, rfl⟩ := List.map_eq_cons_iff.mp hrest
    change row ∈ _ ∧ ¬ request.Rejected bindings matcher start _ row
    rw [hvisits]
    refine ⟨by simp, ?_⟩
    rintro ⟨before', after', q, hagain, hq, hno⟩
    have hnodup : (before ++ row :: after).Nodup := hvisits ▸ visits_visits.nodup
    obtain ⟨-, htail, hapart⟩ := List.nodup_append.mp hnodup
    obtain ⟨rfl, -, -⟩ := (List.append_cons_inj_of_notMem
      (fun hmem => hapart row hmem row List.mem_cons_self rfl)
      (List.nodup_cons.mp htail).1).mp hagain
    have := hyes q hq
    rw [filterMap_withQuestion, hno] at this
    cases this
  · rintro ⟨hmem, hkept⟩
    obtain ⟨before, after, hvisits⟩ := List.append_of_mem hmem
    refine ⟨before.map (request.withQuestion bindings start), request.withQuestion bindings start row,
      after.map (request.withQuestion bindings start), ?_, rfl, fun q hq => ?_⟩
    · rw [asked, hvisits, List.map_append, List.map_cons]
    · by_contra hno
      rw [filterMap_withQuestion] at hno
      exact hkept ⟨before, after, q, hvisits, hq, Bool.eq_false_of_not_eq_true hno⟩

theorem question?_entryFor (server : ServerId) (item : Item) :
    request.question? bindings start (request.entryFor bindings start server item) =
      if isFiltered bindings server && !(request.typed start).isEmpty then
        some ⟨String.ofList (request.typed start),
          (request.entryFor bindings start server item).filterKey⟩
      else none := by
  have hserver : (request.entryFor bindings start server item).server = server := rfl
  unfold question? typed
  rw [hserver]
  cases isFiltered bindings server with
  | false => rfl
  | true =>
    rcases slice? request.line start request.cursorColumn with _ | _ | ⟨c, typed⟩ <;> rfl

theorem map_rowsOf (server : ServerId) (value : Json) :
    (request.rowsOf bindings start (server, .ok value)).map (·.2) =
      (Response.ofJson value).items.map (request.entryFor bindings start server) := by
  have hitems : (Response.ofJson value).items =
      ((RawList.ofJson? value).getD {}).items.filterMap fun v =>
        (Item.decode (((RawList.ofJson? value).getD {}).complete v)).toOption := by
    unfold Response.ofJson
    cases RawList.ofJson? value <;> rfl
  rw [hitems, rowsOf, List.map_filterMap, List.map_filterMap]
  generalize (RawList.ofJson? value).getD {} = list
  -- The index is looked at by nobody.
  conv => rhs; rw [← List.zipIdx_map_fst 0 list.items, List.filterMap_map]
  refine List.filterMap_congr fun row _ => ?_
  simp only [Option.map_map]
  rfl

/-- The candidates of one answer are its entries with their questions. -/
theorem candidates_eq (server : ServerId) (value : Json) (encoding : Encoding) :
    request.candidates start ⟨server, encoding, isFiltered bindings server, .ofJson value⟩ =
      (request.rowsOf bindings start (server, .ok value)).map fun row =>
        (row.2, request.question? bindings start row.2) := by
  have hrows : ((request.rowsOf bindings start (server, .ok value)).map fun row =>
        (row.2, request.question? bindings start row.2)) =
      ((Response.ofJson value).items.map (request.entryFor bindings start server)).map fun m =>
        (m, request.question? bindings start m) := by
    rw [← map_rowsOf, List.map_map]
    rfl
  rw [hrows, List.map_map]
  refine List.map_congr_left fun item _ => ?_
  rw [Function.comp_apply, question?_entryFor]
  rfl

/-- Forgetting the places, what is asked about are the candidates of all answers. -/
theorem map_asked : (request.asked replies bindings start).map (fun c => (c.1.2, c.2)) =
    (answers replies bindings).flatMap (request.candidates start) := by
  rw [asked, List.map_map]
  change (request.visits replies bindings start).map
    (fun row => (row.2, request.question? bindings start row.2)) = _
  unfold visits answers
  induction replies.entries with
  | nil => rfl
  | cons answer rest ih =>
    obtain ⟨server, reply⟩ := answer
    rw [List.flatMap_cons, List.map_append, ih]
    cases reply with
    | error e => rfl
    | ok value => exact congrArg (· ++ _) (candidates_eq server value _).symm

/-- Sorting entries as they are visited puts those with equal keys in the order of their places. -/
theorem listing_mergeSort {visited rows : List (Place × Match)}
    (hmem : ∀ row, row ∈ rows ↔
      row ∈ visited ∧ ¬ request.Rejected bindings matcher start visited row)
    (hplaces : rows.Pairwise fun a b => a.1.before b.1) :
    request.Listing bindings matcher start visited
      (rows.mergeSort fun a b => a.2.item.sortKey ≤ b.2.item.sortKey) where
  mem row := by rw [List.mem_mergeSort, hmem]
  order := by
    have htrans (a b c : Place × Match) :
        decide (a.2.item.sortKey ≤ b.2.item.sortKey) = true →
          decide (b.2.item.sortKey ≤ c.2.item.sortKey) = true →
            decide (a.2.item.sortKey ≤ c.2.item.sortKey) = true := by
      simp only [decide_eq_true_eq]
      exact Std.le_trans
    have htotal (a b : Place × Match) :
        (decide (a.2.item.sortKey ≤ b.2.item.sortKey) ||
          decide (b.2.item.sortKey ≤ a.2.item.sortKey)) = true := by
      simpa using Std.le_total
    refine (pairwise_mergeSort_of_pairwise htrans htotal hplaces).imp ?_
    rintro ⟨p, m⟩ ⟨q, n⟩ ⟨hle, hties⟩
    simp only [decide_eq_true_eq] at hle hties
    by_cases hge : n.item.sortKey ≤ m.item.sortKey
    · exact .inr ⟨congrArg utf8 (Std.le_antisymm hle hge), hties hge⟩
    · exact .inl ((utf8_lt_iff _ _).mpr (Std.not_le.mp hge))

/-- There are no two ways to list the entries. -/
theorem Listing.unique {visited rows others : List (Place × Match)}
    (h : request.Listing bindings matcher start visited rows)
    (g : request.Listing bindings matcher start visited others) : others = rows := by
  let below (a b : Place × Match) : Prop :=
    keyOf a.2 < keyOf b.2 ∨ keyOf a.2 = keyOf b.2 ∧ a.1.before b.1
  have hasymm (a b : Place × Match) (hab : below a b) (hba : below b a) : False := by
    rcases hab with hab | ⟨hkey, hab⟩
    · rcases hba with hba | ⟨hkey, _⟩
      · exact List.lt_asymm hab hba
      · exact List.lt_irrefl _ (hkey ▸ hab)
    · rcases hba with hba | ⟨_, hba⟩
      · exact List.lt_irrefl _ (hkey ▸ hba)
      · exact Place.before_asymm hab hba
  have : Std.Irrefl below := ⟨fun a ha => hasymm a a ha ha⟩
  have : Std.Antisymm below := ⟨fun a b hab hba => (hasymm a b hab hba).elim⟩
  exact List.Pairwise.eq_of_mem_iff g.order h.order fun row =>
    (g.mem row).trans (h.mem row).symm

theorem mem_errors {server : ServerId} {e : ResponseError} :
    (server, e) ∈ errors replies ↔ replies.find? server = some (.error e) := by
  rw [errors, List.mem_filterMap, Table.find?_eq_some_iff]
  constructor
  · rintro ⟨⟨x, reply⟩, hr, he⟩
    cases reply with
    | ok value => cases he
    | error d =>
      obtain ⟨rfl, rfl⟩ := Prod.mk.inj (Option.some.inj he)
      exact hr
  · exact fun h => ⟨_, h, rfl⟩

theorem errors_pairwise : (errors replies).Pairwise fun a b => a.1 < b.1 := by
  refine List.Pairwise.filterMap _ ?_ replies.ascending
  rintro ⟨x, reply⟩ ⟨y, answer⟩ hlt a ha b hb
  cases reply with
  | ok value => cases ha
  | error d =>
    cases answer with
    | ok value => cases hb
    | error e =>
      obtain rfl := Option.some.inj ha
      obtain rfl := Option.some.inj hb
      exact hlt

theorem any_answers {p : Response → Bool} :
    (answers replies bindings).any (fun answer => p answer.response) = true ↔
      ∃ server value, replies.find? server = some (.ok value) ∧ p (.ofJson value) = true := by
  simp only [List.any_eq_true, answers, List.mem_filterMap, Table.find?_eq_some_iff]
  constructor
  · rintro ⟨answer, ⟨⟨server, reply⟩, hr, ha⟩, hp⟩
    cases reply with
    | error e => cases ha
    | ok value =>
      obtain rfl := Option.some.inj ha
      exact ⟨server, value, hr, hp⟩
  · rintro ⟨server, value, hr, hp⟩
    exact ⟨_, ⟨(server, .ok value), hr, rfl⟩, hp⟩

end
end MergeRequest

/-- Errors are those of the servers that sent one, the result is incomplete if an answer tells so, and
the entries are those of all items that the matcher does not turn down, each once and in order. There
is no other such list. The matcher was asked about each item in its turn. -/
theorem merge_lists_all (request : MergeRequest) (replies : ServerMap Reply)
    (bindings : ServerMap Binding) (matcher : Matcher) :
    let merged := merge request replies bindings matcher
    (merged.errors.Pairwise fun a b => a.1 < b.1) ∧
      (∀ server e, (server, e) ∈ merged.errors ↔ replies.find? server = some (.error e)) ∧
      (merged.isIncomplete = true ↔ ∃ server fs, replies.find? server = some (.ok (.obj fs)) ∧
        Fields.find? "isIncomplete" fs = some (.bool true)) ∧
      ∃ visited rows, request.Visits replies bindings merged.startColumn visited ∧
        merged.matcher = matcher.after (request.questions bindings merged.startColumn visited) ∧
        merged.entries = rows.map (·.2) ∧
        request.Listing bindings matcher merged.startColumn visited rows ∧
        ∀ others otherRows, request.Visits replies bindings merged.startColumn others →
          request.Listing bindings matcher merged.startColumn others otherRows →
          otherRows = rows := by
  intro merged
  let visited := request.visits replies bindings merged.startColumn
  let sifted := matcher.sift (request.asked replies bindings merged.startColumn)
  have hplaces : sifted.1.Pairwise fun a b => a.1.before b.1 :=
    List.Pairwise.sublist (map_fst_asked ▸ Matcher.sift_sublist _) visits_pairwise
  have hlisting := listing_mergeSort (fun _ => mem_sift_asked) hplaces
  refine ⟨errors_pairwise, fun server e => mem_errors, ?_, visited, _, visits_visits, ?_, ?_, hlisting,
    fun others otherRows hothers h => ?_⟩
  · refine any_answers.trans ?_
    simp only [Response.isIncomplete_ofJson_iff]
    constructor
    · rintro ⟨server, _, hr, fs, rfl, hi⟩
      exact ⟨server, fs, hr, hi⟩
    · rintro ⟨server, fs, hr, hi⟩
      exact ⟨server, .obj fs, hr, fs, rfl, hi⟩
  · change (matcher.sift _).2 = _
    rw [← map_asked, Matcher.sift_snd, List.filterMap_map]
    exact congrArg matcher.after (filterMap_withQuestion _)
  · calc
      merged.entries = Match.sorted (sifted.1.map (·.2)) := by
        change Match.sorted (matcher.sift _).1 = _
        rw [← map_asked]
        exact congrArg Match.sorted (Matcher.sift_map Prod.snd _)
      _ = (sifted.1.mergeSort fun a b => a.2.item.sortKey ≤ b.2.item.sortKey).map (·.2) :=
        (List.map_mergeSort (r := fun a b : Place × Match => a.2.item.sortKey ≤ b.2.item.sortKey)
          fun _ _ _ _ => rfl).symm
  · obtain rfl := visits_visits.unique hothers
    exact hlisting.unique h

/-- Two servers have the same item, and the one that filters by itself another one behind it. The matcher
lets one item through. -/
def twoServers : MergeRequest × ServerMap Reply × ServerMap Binding × Matcher :=
  (⟨0, "ab".toList, 2, 0⟩,
   Table.ofList [
     (⟨1⟩, .ok (.arr [.obj [("label", .str "abc")], .obj [("label", .str "abd")]])),
     (⟨2⟩, .ok (.obj [("isIncomplete", .bool true), ("items", .arr [.obj [("label", .str "abc")]])]))],
   Table.ofList [(⟨1⟩, { (default : Binding) with fuzzy := true })],
   ⟨fun earlier _ => earlier.isEmpty⟩)

/-- The items with equal keys stand in the order of their servers, and the other one is turned down. -/
theorem merge_lists_all_twoServers :
    let request := twoServers.1
    let replies := twoServers.2.1
    let bindings := twoServers.2.2.1
    let matcher := twoServers.2.2.2
    let merged := merge request replies bindings matcher
    merged.isIncomplete = true ∧
      merged.entries.map (fun m => (m.server, m.word)) = [(⟨1⟩, "abc"), (⟨2⟩, "abc")] ∧
      ∃ visited rows row, request.Visits replies bindings merged.startColumn visited ∧
        request.Listing bindings matcher merged.startColumn visited rows ∧
        merged.entries = rows.map (·.2) ∧ row ∈ visited ∧ row.1 = ⟨⟨1⟩, 1⟩ ∧
        row.2.word = "abd" ∧ request.Rejected bindings matcher merged.startColumn visited row := by
  intro request replies bindings matcher merged
  have hentries : merged.entries = [.ofPayload ⟨⟨1⟩, { label := "abc" }⟩ true 0,
      .ofPayload ⟨⟨2⟩, { label := "abc" }⟩ false 0] := by
    change Match.sorted [_, _] = _
    exact List.mergeSort_of_pairwise (by decide)
  obtain ⟨-, -, hincomplete, visited, rows, hvisits, -, hrows, hlisting, -⟩ :=
    merge_lists_all request replies bindings matcher
  let row : Place × Match := (⟨⟨1⟩, 1⟩, .ofPayload ⟨⟨1⟩, { label := "abd" }⟩ true 0)
  have hrow : row ∈ visited := (hvisits.mem _ _).mpr
    ⟨{ label := "abd" }, ⟨_, rfl, _, _, _, .array _, rfl, readsWith_nil_iff.mpr rfl⟩, rfl⟩
  refine ⟨hincomplete.mpr ⟨⟨2⟩, _, rfl, rfl⟩, by rw [hentries]; decide, visited, rows, row, hvisits,
    hlisting, hrows, hrow, rfl, rfl, ?_⟩
  by_contra hkept
  have hmem : row.2 ∈ merged.entries :=
    hrows ▸ List.mem_map_of_mem ((hlisting.mem row).mpr ⟨hrow, hkept⟩)
  have hword : row.2.word ∈ merged.entries.map (·.word) := List.mem_map_of_mem hmem
  rw [hentries] at hword
  revert hword
  decide

end Autocomplete
