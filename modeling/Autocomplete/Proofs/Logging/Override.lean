import Autocomplete.Logging.Override
import Autocomplete.Proofs.Table
import Mathlib.Data.List.TakeWhile

/-! Overriding levels. Directives count up to the first one whose level cannot be read, and of several
for the same module the last one counts. What an override that fails has already set stays set. -/
namespace Autocomplete

namespace Directive

/-- The module that a directive is about, unless it is about all of them. -/
def module? : Directive → Option String
  | .module name _ => some name
  | .global _ => none

def levelText : Directive → String
  | .module _ text => text
  | .global text => text

def isValid (d : Directive) : Bool := (Level.ofName? d.levelText).isSome

/-- What is reported if the level of a directive cannot be read. -/
def error : Directive → OverrideError
  | .module name text => .moduleLevel name ⟨text⟩
  | .global text => .globalLevel ⟨text⟩

/-- The level that a directive sets for a module, or for all of them. -/
def levelFor? (m : Option String) (d : Directive) : Option Level :=
  if d.module? = m then Level.ofName? d.levelText else none

/-- The level that the last directive for a module sets. -/
def lastLevel? (ds : List Directive) (m : Option String) : Option Level :=
  ds.reverse.findSome? (levelFor? m)

@[simp] theorem levelFor?_module (name text : String) (m : Option String) :
    (Directive.module name text).levelFor? m = if some name = m then Level.ofName? text else none := rfl

@[simp] theorem levelFor?_global (text : String) (m : Option String) :
    (Directive.global text).levelFor? m = if none = m then Level.ofName? text else none := rfl

theorem lastLevel?_cons (d : Directive) (ds : List Directive) (m : Option String) :
    lastLevel? (d :: ds) m = (lastLevel? ds m).or (d.levelFor? m) := by
  cases h : d.levelFor? m <;> simp [lastLevel?, List.findSome?_append, h]

end Directive

namespace LoggingConfig
open Directive

/-- The level of a module, or that of all modules without their own. -/
def levelFor? (c : LoggingConfig) : Option String → Option Level
  | none => some c.level
  | some name => c.moduleLevels.find? name

theorem eq_of_levels {c d : LoggingConfig} (hlevels : ∀ m, d.levelFor? m = c.levelFor? m)
    (houtput : d.output = c.output) (hfile : d.file = c.file) : d = c := by
  obtain ⟨level, moduleLevels, output, file⟩ := c
  obtain ⟨level', moduleLevels', output', file'⟩ := d
  obtain rfl : level' = level := Option.some.inj (hlevels none)
  obtain rfl : moduleLevels' = moduleLevels := Table.ext_find? fun name => hlevels (some name)
  simp_all

/-- The settings are those after some directives, all of which can be read. -/
structure Takes (c : LoggingConfig) (ds : List Directive) (d : LoggingConfig) : Prop where
  levels (m : Option String) : d.levelFor? m = (lastLevel? ds m).or (c.levelFor? m)
  output : d.output = c.output
  file : d.file = c.file

namespace Takes

variable {c d : LoggingConfig} {ds : List Directive}

theorem nil (c : LoggingConfig) : c.Takes [] c := ⟨fun _ => rfl, rfl, rfl⟩

theorem cons {b : LoggingConfig} {x : Directive} (hx : c.Takes [x] b) (h : b.Takes ds d) :
    c.Takes (x :: ds) d where
  levels m := by
    rw [h.levels, hx.levels, lastLevel?_cons, lastLevel?_cons]
    simp [lastLevel?, Option.or_assoc]
  output := h.output.trans hx.output
  file := h.file.trans hx.file

/-- Directives change nothing exactly if the last ones for each module repeat what is set. -/
theorem eq_iff (h : c.Takes ds d) :
    d = c ↔ ∀ m level, lastLevel? ds m = some level → c.levelFor? m = some level := by
  constructor
  · rintro rfl m level hm
    rw [h.levels, hm, Option.some_or]
  · intro hsame
    refine eq_of_levels (fun m => ?_) h.output h.file
    rw [h.levels]
    cases hm : lastLevel? ds m with
    | none => rfl
    | some level => rw [hsame m level hm, Option.some_or]

end Takes

variable {c : LoggingConfig}

theorem applyDirective_valid {x : Directive} (hx : x.isValid = true) :
    ∃ d, c.applyDirective x = .ok d ∧ c.Takes [x] d := by
  obtain ⟨level, hlevel⟩ := Option.isSome_iff_exists.mp hx
  cases x with
  | module name text =>
    simp only [levelText] at hlevel
    refine ⟨{ c with moduleLevels := c.moduleLevels.insert name level }, ?_, ?_, rfl, rfl⟩
    · simp [applyDirective, Level.parse, hlevel]
    · rintro (_ | other)
      · simp [lastLevel?, levelFor?]
      · by_cases hname : name = other <;>
          simp [lastLevel?, levelFor?, Table.find?_insert, hlevel, hname]
  | global text =>
    simp only [levelText] at hlevel
    refine ⟨{ c with level }, ?_, ?_, rfl, rfl⟩
    · simp [applyDirective, Level.parse, hlevel]
    · rintro (_ | other) <;> simp [lastLevel?, levelFor?, hlevel]

theorem applyDirective_invalid {x : Directive} (hx : x.isValid = false) :
    c.applyDirective x = .error x.error := by
  have hlevel : Level.ofName? x.levelText = none := by simpa [isValid] using hx
  cases x <;> simp_all [levelText, applyDirective, Level.parse, error]

/-- Directives are taken up to the first one that cannot be read. -/
theorem applyDirectives_takes (c : LoggingConfig) (ds : List Directive) :
    c.Takes (ds.takeWhile isValid) (c.applyDirectives ds).1 := by
  induction ds generalizing c with
  | nil => exact .nil c
  | cons x rest ih =>
    cases hx : x.isValid with
    | true =>
      obtain ⟨d, hd, htakes⟩ := applyDirective_valid (c := c) hx
      rw [List.takeWhile_cons_of_pos hx, applyDirectives, hd]
      exact htakes.cons (ih d)
    | false =>
      rw [List.takeWhile_cons_of_neg (by simp [hx]), applyDirectives, applyDirective_invalid hx]
      exact .nil c

theorem applyDirectives_error (c : LoggingConfig) (ds : List Directive) :
    (c.applyDirectives ds).2 = (ds.dropWhile isValid).head?.map error := by
  induction ds generalizing c with
  | nil => rfl
  | cons x rest ih =>
    cases hx : x.isValid with
    | true =>
      obtain ⟨d, hd, _⟩ := applyDirective_valid (c := c) hx
      rw [List.dropWhile_cons_of_pos hx, applyDirectives, hd]
      exact ih d
    | false =>
      rw [List.dropWhile_cons_of_neg (by simp [hx]), applyDirectives, applyDirective_invalid hx]
      rfl

/-- An override fails where the levels cannot be read, and is not carried on from there. -/
theorem overrideLevels_of_error {lookup : String → Option String} {e : OverrideError}
    (h : (c.override lookup).2 = some e) :
    c.overrideLevels lookup = ((c.override lookup).1, some e) := by
  unfold override at h ⊢
  split at h
  · cases h
  next d e' hd =>
    cases h
    rw [hd]

/-- An override that fails leaves the outputs and the file alone. With a bad level for all modules it
changes nothing at all, but of a list of directives those before the bad one stay in force: nothing is
changed exactly if they repeat what was set before. -/
theorem failedOverride_keepsEarlier {lookup : String → Option String} {e : OverrideError}
    (h : (c.override lookup).2 = some e) :
    (c.override lookup).1.output = c.output ∧ (c.override lookup).1.file = c.file ∧
      ((∃ text, lookup "QUILL_LOG" = some text ∧ e = .level ⟨text⟩ ∧
          (c.override lookup).1 = c) ∨
        ∃ text before bad rest, lookup "QUILL_LOG" = none ∧ lookup "RUST_LOG" = some text ∧
          parseAll text = before ++ bad :: rest ∧ (∀ x ∈ before, x.isValid = true) ∧
          bad.isValid = false ∧ e = bad.error ∧
          (∀ m, (c.override lookup).1.levelFor? m = (lastLevel? before m).or (c.levelFor? m)) ∧
          ((c.override lookup).1 = c ↔
            ∀ m level, lastLevel? before m = some level → c.levelFor? m = some level)) := by
  have hlevels := overrideLevels_of_error h
  generalize (c.override lookup).1 = d at hlevels ⊢
  unfold overrideLevels at hlevels
  split at hlevels
  next text hquill =>
    -- A level for all modules is set only after it was read.
    cases hlevel : Level.ofName? text with
    | none =>
      obtain ⟨rfl, rfl⟩ : c = d ∧ .level ⟨text⟩ = e := by
        simpa [Level.parse, hlevel] using hlevels
      exact ⟨rfl, rfl, .inl ⟨text, hquill, rfl, rfl⟩⟩
    | some level => simp [Level.parse, hlevel] at hlevels
  next hquill =>
    split at hlevels
    next text hrust =>
      have htakes := c.applyDirectives_takes (parseAll text)
      have herror := c.applyDirectives_error (parseAll text)
      rw [hlevels] at htakes herror
      obtain ⟨bad, hbad, rfl⟩ := Option.map_eq_some_iff.mp herror.symm
      obtain ⟨rest, hrest⟩ := List.head?_eq_some_iff.mp hbad
      have hinvalid := List.head?_dropWhile_not isValid (parseAll text)
      rw [hbad] at hinvalid
      refine ⟨htakes.output, htakes.file, .inr ⟨text, (parseAll text).takeWhile isValid, bad, rest,
        hquill, hrust, ?_, ?_, hinvalid, rfl, htakes.levels, htakes.eq_iff⟩⟩
      · rw [← hrest, List.takeWhile_append_dropWhile]
      · intro x hx
        exact List.mem_takeWhile_imp hx
    next => simp at hlevels

/-- An environment with one variable. -/
def onlySet (name value : String) : String → Option String :=
  fun other => if other = name then some value else none

/-- Two directives that can be read, and one that cannot. -/
def badThird : String → Option String := onlySet "RUST_LOG" "debug,a=trace,loud"

theorem failedOverride_keepsEarlier_badThird :
    let c := default "/cache"
    let d := (c.override badThird).1
    (c.override badThird).2 = some (.globalLevel ⟨"loud"⟩) ∧ d.output = c.output ∧ d.file = c.file ∧
      d.level = .debug ∧ d.moduleLevels.find? "a" = some .trace ∧ d ≠ c := by
  intro c d
  have herror : (c.override badThird).2 = some (.globalLevel ⟨"loud"⟩) := by decide +kernel
  have hlevel : d.level = .debug := by decide +kernel
  obtain ⟨houtput, hfile, _⟩ := failedOverride_keepsEarlier herror
  refine ⟨herror, houtput, hfile, hlevel, by decide +kernel, ?_⟩
  intro hd
  have hdefault : c.level = .debug := hd ▸ hlevel
  cases hdefault

end LoggingConfig
end Autocomplete
