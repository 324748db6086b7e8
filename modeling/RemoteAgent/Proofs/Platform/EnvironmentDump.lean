import Mathlib.Data.List.Basic
import RemoteAgent.Platform.EnvironmentDump

/-! # Reading printed environments

An environment that is printed one variable a line is read back variable by variable, whether the
lines end in a line feed alone or in a carriage return before it, and whatever lines without an
equals sign stand between them. Of the variables with a name, up to the case of ASCII letters, the
one that was printed first is found.
-/

namespace RemoteAgent.EnvironmentDump

/-- A variable as it is printed. -/
def line (v : String × String) : List Char :=
  v.1.toList ++ '=' :: v.2.toList

def print (vars : List (String × String)) : String :=
  String.ofList (vars.flatMap fun v => line v ++ ['\n'])

/-- A variable that a line can hold. -/
structure IsPrintable (v : String × String) : Prop where
  name_noEquals : '=' ∉ v.1.toList
  name_noLineFeed : '\n' ∉ v.1.toList
  value_noLineFeed : '\n' ∉ v.2.toList
  value_noReturn : v.2.toList.getLast? ≠ some '\r'

instance : DecidablePred IsPrintable := fun v =>
  decidable_of_iff ('=' ∉ v.1.toList ∧ '\n' ∉ v.1.toList ∧ '\n' ∉ v.2.toList ∧
    v.2.toList.getLast? ≠ some '\r')
    ⟨fun ⟨hequals, hname, hvalue, hreturn⟩ => ⟨hequals, hname, hvalue, hreturn⟩,
      fun ⟨hequals, hname, hvalue, hreturn⟩ => ⟨hequals, hname, hvalue, hreturn⟩⟩

/-- A line of a printed environment: a variable, or a text that is none. -/
inductive Line where
  | setting (v : String × String)
  | other (text : String)

namespace Line

def text : Line → List Char
  | .setting v => line v
  | .other text => text.toList

def setting? : Line → Option (String × String)
  | .setting v => some v
  | .other _ => none

inductive IsPrintable : Line → Prop where

  | setting {v : String × String} : EnvironmentDump.IsPrintable v → IsPrintable (.setting v)

  | other {text : String} : '=' ∉ text.toList → '\n' ∉ text.toList → IsPrintable (.other text)

instance : DecidablePred IsPrintable
  | .setting v => decidable_of_iff (EnvironmentDump.IsPrintable v)
      ⟨.setting, fun h => match h with | .setting hv => hv⟩
  | .other text => decidable_of_iff ('=' ∉ text.toList ∧ '\n' ∉ text.toList)
      ⟨fun ⟨hequals, hfeed⟩ => .other hequals hfeed,
        fun h => match h with | .other hequals hfeed => ⟨hequals, hfeed⟩⟩

end Line

inductive LineEnd where
  | lineFeed
  | returnLineFeed

/-- What stands before the line feed that ends a line. -/
def LineEnd.returns : LineEnd → List Char
  | lineFeed => []
  | returnLineFeed => ['\r']

/-- An environment as it is printed: lines that are ended in either way, and perhaps a last one that
is not ended. -/
structure Printout where
  ended : List (Line × LineEnd)
  last : Option Line

namespace Printout

def dump (p : Printout) : String :=
  String.ofList (p.ended.flatMap (fun l => l.1.text ++ l.2.returns ++ ['\n']) ++
    p.last.elim [] Line.text)

def lines (p : Printout) : List Line :=
  p.ended.map (·.1) ++ p.last.toList

def settings (p : Printout) : List (String × String) :=
  p.lines.filterMap Line.setting?

def IsPrintable (p : Printout) : Prop :=
  ∀ l ∈ p.lines, l.IsPrintable

instance (p : Printout) : Decidable p.IsPrintable :=
  inferInstanceAs (Decidable (∀ l ∈ p.lines, l.IsPrintable))

/-- One variable a line, with line feeds alone. -/
def ofSettings (vars : List (String × String)) : Printout where
  ended := vars.map fun v => (.setting v, .lineFeed)
  last := none

end Printout

section Lines

theorem splitLinesFrom_line {l : List Char} (h : '\n' ∉ l) (begun rest : List Char) :
    Text.splitLinesFrom begun (l ++ '\n' :: rest) =
      (begun.reverse ++ l ++ ['\n']) :: Text.splitLinesFrom [] rest := by
  induction l generalizing begun with
  | nil => simp [Text.splitLinesFrom]
  | cons c l ih =>
    obtain ⟨hc, hl⟩ := List.ne_and_not_mem_of_not_mem_cons h
    rw [List.cons_append, Text.splitLinesFrom, if_neg (Ne.symm hc), ih hl]
    simp

theorem splitLinesFrom_last {l : List Char} (h : '\n' ∉ l) (begun : List Char) :
    Text.splitLinesFrom begun l =
      if (begun.reverse ++ l).isEmpty then [] else [begun.reverse ++ l] := by
  induction l generalizing begun with
  | nil => simp [Text.splitLinesFrom]
  | cons c l ih =>
    obtain ⟨hc, hl⟩ := List.ne_and_not_mem_of_not_mem_cons h
    rw [Text.splitLinesFrom, if_neg (Ne.symm hc), ih hl]
    simp

theorem lines_flatMap {ls : List (List Char)} {last : List Char} (h : ∀ l ∈ ls, '\n' ∉ l)
    (hlast : '\n' ∉ last) :
    Text.lines (ls.flatMap (· ++ ['\n']) ++ last) =
      ls.map (· ++ ['\n']) ++ if last.isEmpty then [] else [last] := by
  unfold Text.lines
  induction ls with
  | nil => simpa using splitLinesFrom_last hlast []
  | cons l ls ih =>
    obtain ⟨hl, hls⟩ := List.forall_mem_cons.1 h
    rw [List.flatMap_cons, List.append_assoc, List.append_assoc, List.singleton_append,
      splitLinesFrom_line hl, ih hls, List.reverse_nil, List.nil_append]
    rfl

theorem dropEndWhile_eq_self {p : Char → Bool} {cs : List Char}
    (h : ∀ c, cs.getLast? = some c → p c = false) : Text.dropEndWhile p cs = cs := by
  unfold Text.dropEndWhile
  rw [List.getLast?_eq_head?_reverse] at h
  rcases hrev : cs.reverse with _ | ⟨c, r⟩
  · rw [List.dropWhile_nil, ← hrev, List.reverse_reverse]
  · rw [hrev] at h
    rw [List.dropWhile_cons_of_neg (by simp [h c rfl]), ← hrev, List.reverse_reverse]

/-- The end of a line and all carriage returns before it are dropped. -/
theorem stripEnd_ended (l : List Char) (e : LineEnd) :
    stripEnd (l ++ e.returns ++ ['\n']) = Text.dropEndWhile (· == '\r') l := by
  simp only [stripEnd, List.getLast?_concat, if_true, List.dropLast_concat]
  cases e <;> simp [LineEnd.returns, Text.dropEndWhile]

theorem stripEnd_last {l : List Char} (h : '\n' ∉ l) :
    stripEnd l = Text.dropEndWhile (· == '\r') l := by
  rw [stripEnd, if_neg fun hlast => h (List.mem_of_getLast? hlast)]

theorem mem_of_mem_dropEndWhile {p : Char → Bool} {cs : List Char} {c : Char}
    (h : c ∈ Text.dropEndWhile p cs) : c ∈ cs := by
  rw [Text.dropEndWhile, List.mem_reverse] at h
  exact List.mem_reverse.1 ((List.dropWhile_sublist p).mem h)

theorem splitAtEquals_eq_none {l : List Char} (h : '=' ∉ l) : splitAtEquals l = none := by
  induction l with
  | nil => rfl
  | cons c l ih =>
    obtain ⟨hc, hl⟩ := List.ne_and_not_mem_of_not_mem_cons h
    rw [splitAtEquals, ih hl]
    · rfl
    · exact Ne.symm hc

theorem splitAtEquals_append {name : List Char} (h : '=' ∉ name) (value : List Char) :
    splitAtEquals (name ++ '=' :: value) = some (name, value) := by
  induction name with
  | nil => rfl
  | cons c name ih =>
    obtain ⟨hc, hname⟩ := List.ne_and_not_mem_of_not_mem_cons h
    rw [List.cons_append, splitAtEquals, ih hname]
    · rfl
    · exact Ne.symm hc

end Lines

section Variables

variable {v : String × String} {vars : List (String × String)}

theorem IsPrintable.lineFeed_notMem (h : IsPrintable v) : '\n' ∉ line v := by
  simp [line, h.name_noLineFeed, h.value_noLineFeed]

theorem IsPrintable.getLast?_line (h : IsPrintable v) : (line v).getLast? ≠ some '\r' := by
  rw [line, List.getLast?_append, List.getLast?_cons]
  rcases hlast : v.2.toList.getLast? with _ | c
  · simp
  · simpa [hlast] using h.value_noReturn

theorem IsPrintable.splitAtEquals_line (h : IsPrintable v) :
    splitAtEquals (line v) = some (v.1.toList, v.2.toList) :=
  splitAtEquals_append h.name_noEquals _

theorem Line.IsPrintable.lineFeed_notMem {l : Line} (h : l.IsPrintable) : '\n' ∉ l.text := by
  cases h with
  | setting hv => exact hv.lineFeed_notMem
  | other _ hfeed => exact hfeed

/-- What is read from a line. -/
def Line.read? (l : Line) : Option (List Char × List Char) :=
  l.setting?.map fun v => (v.1.toList, v.2.toList)

theorem Line.IsPrintable.splitAtEquals_text {l : Line} (h : l.IsPrintable) :
    splitAtEquals (Text.dropEndWhile (· == '\r') l.text) = l.read? := by
  cases h with
  | @setting v hv =>
    have hkept : Text.dropEndWhile (· == '\r') (line v) = line v := by
      refine dropEndWhile_eq_self fun c hc => beq_eq_false_iff_ne.2 ?_
      rintro rfl
      exact hv.getLast?_line hc
    exact (congrArg splitAtEquals hkept).trans hv.splitAtEquals_line
  | other hequals _ =>
    exact splitAtEquals_eq_none fun hmem => hequals (mem_of_mem_dropEndWhile hmem)

namespace Printout

variable {p : Printout}

theorem lines_dump (h : p.IsPrintable) :
    Text.lines p.dump.toList = p.ended.map (fun l => l.1.text ++ l.2.returns ++ ['\n']) ++
      if (p.last.elim [] Line.text).isEmpty then [] else [p.last.elim [] Line.text] := by
  have hended : ∀ l ∈ p.ended.map fun l => l.1.text ++ l.2.returns, '\n' ∉ l := by
    intro l hl
    obtain ⟨⟨l, e⟩, hmem, rfl⟩ := List.mem_map.1 hl
    have hfeed := (h l (List.mem_append_left _ (List.mem_map_of_mem hmem))).lineFeed_notMem
    cases e <;> simpa [LineEnd.returns] using hfeed
  have hlast : '\n' ∉ p.last.elim [] Line.text := by
    rcases hl : p.last with _ | l
    · exact List.not_mem_nil
    · exact (h l (List.mem_append_right _ (by simp [hl]))).lineFeed_notMem
  have hlines := lines_flatMap hended hlast
  rw [List.flatMap_map, List.map_map] at hlines
  rw [dump, String.toList_ofList]
  exact hlines

theorem filterMap_last (h : p.IsPrintable) :
    (if (p.last.elim [] Line.text).isEmpty then [] else [p.last.elim [] Line.text]).filterMap
      (fun l => splitAtEquals (stripEnd l)) = p.last.toList.filterMap Line.read? := by
  rcases hl : p.last with _ | l
  · rfl
  · have hprintable := h l (List.mem_append_right _ (by simp [hl]))
    have hread := hprintable.splitAtEquals_text
    rw [← stripEnd_last hprintable.lineFeed_notMem] at hread
    -- An empty last line is not there, and no variable is printed as one.
    have hempty : splitAtEquals (stripEnd []) = none := rfl
    rcases htext : l.text with _ | ⟨c, cs⟩ <;> rw [htext] at hread <;>
      simp [htext, List.filterMap_cons, ← hread, hempty]

/-- What is printed is read back. -/
theorem entries_dump (h : p.IsPrintable) :
    entries p.dump = p.settings.map fun v => (v.1.toList, v.2.toList) := by
  have hended : p.ended.filterMap (fun l => splitAtEquals (stripEnd (l.1.text ++ l.2.returns ++
      ['\n']))) = p.ended.filterMap fun l => l.1.read? := by
    refine List.filterMap_congr fun l hl => ?_
    rw [stripEnd_ended]
    exact (h l.1 (List.mem_append_left _ (List.mem_map_of_mem hl))).splitAtEquals_text
  rw [entries, lines_dump h, List.filterMap_append, List.filterMap_map, filterMap_last h, settings,
    lines, List.filterMap_append, List.filterMap_map, List.map_append, List.map_filterMap,
    List.map_filterMap]
  exact congrArg (· ++ _) hended

theorem isPrintable_ofSettings (h : ∀ v ∈ vars, EnvironmentDump.IsPrintable v) :
    (ofSettings vars).IsPrintable := by
  intro l hl
  obtain ⟨v, hv, rfl⟩ : ∃ v ∈ vars, .setting v = l := by
    simpa [ofSettings, lines] using hl
  exact .setting (h v hv)

theorem dump_ofSettings (vars : List (String × String)) : (ofSettings vars).dump = print vars := by
  simp [ofSettings, dump, print, Line.text, LineEnd.returns, List.flatMap_map]

theorem settings_ofSettings (vars : List (String × String)) :
    (ofSettings vars).settings = vars := by
  simp [ofSettings, settings, lines, Line.setting?, Function.comp_def]

end Printout

/-- The first variable that is named so, up to the case of ASCII letters. -/
def firstNamed (vars : List (String × String)) (name : String) : Option String :=
  (vars.find? fun v => sameName v.1.toList name.toList).map (·.2)

theorem Printout.IsPrintable.value?_dump {p : Printout} (h : p.IsPrintable) (name : String) :
    value? p.dump name = firstNamed p.settings name := by
  rw [value?, entries_dump h, List.find?_map, firstNamed, Option.map_map]
  simp [Function.comp_def]

theorem value?_print (h : ∀ v ∈ vars, IsPrintable v) (name : String) :
    value? (print vars) name = firstNamed vars name := by
  have hread := (Printout.isPrintable_ofSettings h).value?_dump name
  rwa [Printout.dump_ofSettings, Printout.settings_ofSettings] at hread

end Variables

end RemoteAgent.EnvironmentDump
