import Autocomplete.Proofs.Logging.Override
import Autocomplete.Proofs.Text.Split
import Mathlib.Data.List.TakeDrop

/-! Levels written as directives. Settings whose module names can be written in directives are read back
from them, and all that is ever read from directives can be written again. -/
namespace Autocomplete
open Text

theorem Level.name_nonblank (l : Level) :
    l.name.toList ≠ [] ∧ ∀ c ∈ l.name.toList, c ≠ ',' ∧ c ≠ '=' ∧ isBlank c = false := by
  have hall : (l.name.toList.all fun c => c != ',' && c != '=' && !isBlank c) = true := by
    cases l <;> decide
  constructor
  · cases l <;> decide
  · intro c hc
    simpa [and_assoc] using List.all_eq_true.mp hall c hc

namespace Directive

/-- A name that can stand before the equals sign of a directive. -/
structure Writable (name : String) : Prop where
  comma : ',' ∉ name.toList
  equals : '=' ∉ name.toList
  start : ∀ c ∈ name.toList.head?, isBlank c = false

def text : Directive → String
  | .module name level => s!"{name}={level}"
  | .global level => level

theorem text_module (name level : String) :
    (Directive.module name level).text.toList = name.toList ++ '=' :: level.toList := by
  simp [text, toString]

theorem span_name {name : List Char} (hname : '=' ∉ name) (rest : List Char)
    (hrest : ∀ c ∈ rest.head?, c = '=') :
    (name ++ rest).span (· != '=') = (name, rest) := by
  have hall : ∀ c ∈ name, (c != '=') = true := by
    intro c hc
    exact bne_iff_ne.mpr fun he => hname (he ▸ hc)
  rw [List.span_eq_takeWhile_dropWhile, List.takeWhile_append_of_pos hall,
    List.dropWhile_append_of_pos hall]
  cases rest with
  | nil => simp
  | cons c rest => simp [hrest c rfl]

theorem ofChars?_module {name level : List Char} (h : '=' ∉ name) :
    ofChars? (name ++ '=' :: level) = some (.module (String.ofList name) (String.ofList level)) := by
  have hspan := span_name h ('=' :: level) (by simp)
  cases name <;> simp_all [ofChars?]

theorem ofChars?_global {level : List Char} (hne : level ≠ []) (h : '=' ∉ level) :
    ofChars? level = some (.global (String.ofList level)) := by
  have hspan := span_name h [] (by simp)
  rw [List.append_nil] at hspan
  cases level with
  | nil => exact absurd rfl hne
  | cons c rest => simp only [ofChars?, hspan]

theorem of_ofChars?_module {cs : List Char} {name level : String}
    (h : ofChars? cs = some (.module name level)) :
    cs = name.toList ++ '=' :: level.toList ∧ '=' ∉ name.toList := by
  have hsplit := List.takeWhile_append_dropWhile (p := (· != '=')) (l := cs)
  have hstop := List.head?_dropWhile_not (· != '=') cs
  cases hlevel : cs.dropWhile (· != '=') with
  | nil => cases cs <;> simp_all [ofChars?, List.span_eq_takeWhile_dropWhile]
  | cons c rest =>
    rw [hlevel] at hsplit hstop
    obtain rfl : c = '=' := by simpa using hstop
    have hname : '=' ∉ cs.takeWhile (· != '=') := by
      intro hmem
      simpa using List.mem_takeWhile_imp hmem
    rw [← hsplit, ofChars?_module hname] at h
    cases h
    simp [hsplit, hname]

/-- A directive that is found again in its text, and can stand among others. -/
structure Readable (x : Directive) : Prop where
  comma : ',' ∉ x.text.toList
  found : ofChars? (trim x.text.toList) = some x

theorem Readable.global (l : Level) : (Directive.global l.name).Readable := by
  obtain ⟨hne, hplain⟩ := l.name_nonblank
  have htrim : trim l.name.toList = l.name.toList :=
    trim_eq_self (fun c hc => (hplain c (List.mem_of_mem_head? hc)).2.2)
      (fun c hc => (hplain c (List.mem_of_mem_getLast? hc)).2.2)
  refine ⟨fun h => (hplain _ h).1 rfl, ?_⟩
  rw [text, htrim, ofChars?_global hne fun h => (hplain _ h).2.1 rfl, String.ofList_toList]

theorem Readable.module {name : String} (h : Writable name) (l : Level) :
    (Directive.module name l.name).Readable := by
  obtain ⟨hne, hplain⟩ := l.name_nonblank
  constructor
  · intro hmem
    rw [text_module] at hmem
    rcases List.mem_append.mp hmem with hmem | hmem
    · exact h.comma hmem
    · rcases List.mem_cons.mp hmem with hmem | hmem
      · cases hmem
      · exact (hplain _ hmem).1 rfl
  · have htrim : trim (name.toList ++ '=' :: l.name.toList) = name.toList ++ '=' :: l.name.toList := by
      apply trim_eq_self
      · intro c hc
        cases hname : name.toList with
        | nil =>
          obtain rfl : '=' = c := by simpa [hname] using hc
          decide
        | cons d rest => exact h.start c (by simpa [hname] using hc)
      · intro c hc
        have hlast : c ∈ l.name.toList.getLast? := by
          simpa [List.getLast?_cons, List.getLast?_eq_some_getLast hne] using hc
        exact (hplain c (List.mem_of_mem_getLast? hlast)).2.2
    rw [text_module, htrim, ofChars?_module h.equals, String.ofList_toList, String.ofList_toList]

theorem parseAll_intercalate {xs : List Directive} (hne : xs ≠ []) (h : ∀ x ∈ xs, x.Readable) :
    parseAll (",".intercalate (xs.map text)) = xs := by
  have hsplit : splitAtEach ',' (",".intercalate (xs.map text)).toList = xs.map (·.text.toList) := by
    rw [String.toList_intercalate, List.map_map]
    exact splitAtEach_intercalate (by simpa using hne) fun part hpart => by
      obtain ⟨x, hx, rfl⟩ := List.mem_map.mp hpart
      exact (h x hx).comma
  rw [parseAll, hsplit, List.filterMap_map]
  calc xs.filterMap (fun x => ofChars? (trim x.text.toList))
      = xs.filterMap some := List.filterMap_congr fun x hx => (h x hx).found
    _ = xs := List.filterMap_some

theorem writable_of_mem_parseAll {source name level : String}
    (h : .module name level ∈ parseAll source) : Writable name := by
  obtain ⟨part, hpart, hfound⟩ := List.mem_filterMap.mp h
  obtain ⟨htrim, hequals⟩ := of_ofChars?_module hfound
  refine ⟨fun hc => separator_notMem hpart ((trim_isInfix part).subset ?_), hequals, fun c hc => ?_⟩
  · rw [htrim]
    exact List.mem_append_left _ hc
  · refine not_isBlank_of_head_trim part ?_
    rw [htrim, List.head?_append, hc]
    rfl

end Directive

namespace LoggingConfig
open Directive

/-- The general level, and then those of modules. -/
def toDirectives (c : LoggingConfig) : List Directive :=
  .global c.level.name :: c.moduleLevels.entries.map fun e => .module e.1 e.2.name

/-- The names of all modules can be written in directives. -/
def Writable (c : LoggingConfig) : Prop := ∀ name ∈ c.moduleLevels.keys, Directive.Writable name

theorem directives_eq (c : LoggingConfig) :
    c.directives = ",".intercalate (c.toDirectives.map text) := by
  simp [directives, toDirectives, text, Function.comp_def]

theorem parseAll_directives {c : LoggingConfig} (h : c.Writable) :
    parseAll c.directives = c.toDirectives := by
  rw [directives_eq]
  refine parseAll_intercalate (List.cons_ne_nil _ _) fun x hx => ?_
  rcases List.mem_cons.mp hx with rfl | hx
  · exact .global c.level
  · obtain ⟨e, he, rfl⟩ := List.mem_map.mp hx
    exact .module (h e.1 (List.mem_map_of_mem he)) e.2

theorem toDirectives_valid (c : LoggingConfig) {x : Directive} (hx : x ∈ c.toDirectives) :
    x.isValid = true := by
  rcases List.mem_cons.mp hx with rfl | hx
  · simp [isValid, levelText, Level.ofName?_name]
  · obtain ⟨e, _, rfl⟩ := List.mem_map.mp hx
    simp [isValid, levelText, Level.ofName?_name]

theorem lastLevel?_modules {entries : List (String × Level)} (h : Entries.Ascending entries)
    (name : String) :
    lastLevel? (entries.map fun e => .module e.1 e.2.name) (some name) =
      Entries.find? name entries := by
  induction entries with
  | nil => rfl
  | cons e rest ih =>
    obtain ⟨j, level⟩ := e
    obtain ⟨hhead, htail⟩ := List.pairwise_cons.mp h
    rw [List.map_cons, lastLevel?_cons, ih htail, Entries.find?]
    by_cases hj : j = name
    · have hnone : Entries.find? name rest = none := by
        refine Option.eq_none_iff_forall_ne_some.mpr fun other hother => ?_
        exact Std.lt_irrefl (hj ▸ hhead _ (Entries.mem_of_find? hother))
      simp [hnone, hj, Level.ofName?_name]
    · simp [hj]

/-- Settings written as directives say what they said before. -/
theorem lastLevel?_toDirectives (c : LoggingConfig) (m : Option String) :
    lastLevel? c.toDirectives m = c.levelFor? m := by
  rw [toDirectives, lastLevel?_cons]
  cases m with
  | none =>
    have hnone : lastLevel? (c.moduleLevels.entries.map fun e => .module e.1 e.2.name) none = none := by
      refine List.findSome?_eq_none_iff.mpr fun x hx => ?_
      obtain ⟨e, _, rfl⟩ := List.mem_map.mp (List.mem_reverse.mp hx)
      rfl
    simp [hnone, levelFor?, Level.ofName?_name]
  | some name =>
    rw [lastLevel?_modules c.moduleLevels.ascending]
    simp [levelFor?, Table.find?]

theorem applyDirectives_of_valid (c : LoggingConfig) {ds : List Directive}
    (h : ∀ x ∈ ds, x.isValid = true) :
    (c.applyDirectives ds).2 = none ∧ c.Takes ds (c.applyDirectives ds).1 := by
  have htakes := c.applyDirectives_takes ds
  rw [List.takeWhile_eq_self_iff.mpr h] at htakes
  refine ⟨?_, htakes⟩
  rw [applyDirectives_error, List.dropWhile_eq_nil_iff.mpr h]
  rfl

theorem valid_of_applyDirectives {c : LoggingConfig} {ds : List Directive}
    (h : (c.applyDirectives ds).2 = none) : ∀ x ∈ ds, x.isValid = true := by
  rw [applyDirectives_error, Option.map_eq_none_iff, List.head?_eq_none_iff] at h
  exact List.dropWhile_eq_nil_iff.mp h

theorem override_rustLog (c : LoggingConfig) (source : String) :
    c.override (onlySet "RUST_LOG" source) = c.applyDirectives (parseAll source) := by
  have hlevels : c.overrideLevels (onlySet "RUST_LOG" source) = c.applyDirectives (parseAll source) := by
    simp [overrideLevels, onlySet]
  have houtput (o : LogOutput) : overrideOutput o (onlySet "RUST_LOG" source) = o := by
    simp [overrideOutput, onlySet]
  unfold override
  rw [hlevels]
  split
  next d hd => rw [houtput, hd]
  next d e hd => exact hd.symm

theorem override_directives (cacheDir : String) {c : LoggingConfig} (h : c.Writable) :
    let d := (default cacheDir).override (onlySet "RUST_LOG" c.directives)
    d.2 = none ∧ d.1.level = c.level ∧ d.1.moduleLevels = c.moduleLevels := by
  obtain ⟨hnone, htakes⟩ :=
    (default cacheDir).applyDirectives_of_valid fun _ => c.toDirectives_valid
  rw [override_rustLog, parseAll_directives h]
  refine ⟨hnone, ?_, Table.ext_find? fun name => ?_⟩
  · have hlevel := htakes.levels none
    rw [lastLevel?_toDirectives] at hlevel
    exact Option.some.inj hlevel
  · have hlevel := htakes.levels (some name)
    rw [lastLevel?_toDirectives] at hlevel
    simpa [levelFor?, default] using hlevel

/-- Whatever module a level is read for, it can be written in a directive. -/
theorem writable_of_takes {cacheDir source : String} {d : LoggingConfig}
    (h : (default cacheDir).Takes (parseAll source) d) : d.Writable := by
  intro name hname
  obtain ⟨level, hlevel⟩ := (Table.mem_keys_iff _ _).mp hname
  have hlast : lastLevel? (parseAll source) (some name) = some level := by
    have hread := h.levels (some name)
    simpa [levelFor?, default, hlevel] using hread.symm
  obtain ⟨x, hx, hfor⟩ := List.exists_of_findSome?_eq_some hlast
  cases x with
  | module other text =>
    by_cases hsame : other = name
    · exact hsame ▸ writable_of_mem_parseAll (List.mem_reverse.mp hx)
    · simp [hsame] at hfor
  | global text => simp at hfor

/-- Settings are read back from the directives they are written as, if the names of their modules can
stand in directives. Of the directives in a text the last one for each module counts, and what they
amount to is read back too. -/
theorem directives_roundTrip (cacheDir : String) :
    (∀ c : LoggingConfig, c.Writable →
      let d := (default cacheDir).override (onlySet "RUST_LOG" c.directives)
      d.2 = none ∧ d.1.level = c.level ∧ d.1.moduleLevels = c.moduleLevels) ∧
    ∀ source, let d := (default cacheDir).override (onlySet "RUST_LOG" source)
      d.2 = none →
        d.1.level = (lastLevel? (parseAll source) none).getD .info ∧
        (∀ name, d.1.moduleLevels.find? name = lastLevel? (parseAll source) (some name)) ∧
        let again := (default cacheDir).override (onlySet "RUST_LOG" d.1.directives)
        again.2 = none ∧ again.1.level = d.1.level ∧ again.1.moduleLevels = d.1.moduleLevels := by
  refine ⟨fun c => override_directives cacheDir, ?_⟩
  intro source d herror
  obtain ⟨_, htakes⟩ : d.2 = none ∧ (default cacheDir).Takes (parseAll source) d.1 := by
    simp only [d, override_rustLog] at herror ⊢
    exact applyDirectives_of_valid _ (valid_of_applyDirectives herror)
  refine ⟨?_, ?_, override_directives cacheDir (writable_of_takes htakes)⟩
  · have hlevel := htakes.levels none
    cases hlast : lastLevel? (parseAll source) none <;>
      simpa [levelFor?, default, hlast] using hlevel
  · intro name
    simpa [levelFor?, default] using htakes.levels (some name)

/-- Settings with levels for two modules, one of which ends in a blank. -/
def twoModules : LoggingConfig :=
  { default "/cache" with
    level := .warn
    moduleLevels := (Table.empty.insert "a " .trace).insert "b::c" .error }

/-- Directives with a part that is empty and a module that is named twice. -/
def fourDirectives : String := " a=INFO,Debug,, a=warning,b=trace "

theorem directives_roundTrip_twoModules :
    let d := (default "/cache").override (onlySet "RUST_LOG" twoModules.directives)
    let e := (default "/cache").override (onlySet "RUST_LOG" fourDirectives)
    d.1.level = .warn ∧ d.1.moduleLevels = twoModules.moduleLevels ∧
      e.2 = none ∧ e.1.level = .debug ∧ e.1.moduleLevels.find? "a" = some .warn ∧
      ((default "/cache").override (onlySet "RUST_LOG" e.1.directives)).1.moduleLevels =
        e.1.moduleLevels := by
  intro d e
  obtain ⟨hwritten, hread⟩ := directives_roundTrip "/cache"
  have hwritable : twoModules.Writable := by
    have hkeys : twoModules.moduleLevels.keys = ["a ", "b::c"] := by decide +kernel
    intro name hname
    rw [hkeys] at hname
    rcases List.mem_pair.mp hname with rfl | rfl
    · refine ⟨by decide, by decide, fun c hc => ?_⟩
      obtain rfl : 'a' = c := Option.some.inj hc
      decide
    · refine ⟨by decide, by decide, fun c hc => ?_⟩
      obtain rfl : 'b' = c := Option.some.inj hc
      decide
  have herror : e.2 = none := by decide +kernel
  obtain ⟨_, hlevel, hmodules⟩ := hwritten twoModules hwritable
  obtain ⟨hgeneral, hmodule, _, _, hagain⟩ := hread fourDirectives herror
  refine ⟨hlevel, hmodules, herror, ?_, ?_, ?_⟩
  · rw [hgeneral]
    decide +kernel
  · rw [hmodule]
    decide +kernel
  · simp only [e, hagain]

end LoggingConfig
end Autocomplete
