import Mathlib.Data.List.Forall2
import RemoteAgent.Platform.WindowsEnvironment
import RemoteAgent.Proofs.Platform.EnvironmentDump
import RemoteAgent.Proofs.Transport.Docker

/-! # What the environment of a Windows machine tells

A Windows machine is known by a few variables of its environment. As long as no two variables have
the same name up to case, neither the order of the lines nor the case of the names, the way lines
end or any other variable makes a difference to what is learned about the platform, or about the
user of a container.
-/

namespace RemoteAgent

namespace EnvironmentDump

variable {names : List String} {vars vars' : List (String × String)} {name value : String}

/-- No two names are the same up to case. -/
def AreDistinct (vars : List (String × String)) : Prop :=
  vars.Pairwise fun v v' => sameName v.1.toList v'.1.toList = false

instance (vars : List (String × String)) : Decidable (AreDistinct vars) :=
  inferInstanceAs (Decidable (vars.Pairwise _))

/-- The same value, under a name that is the same up to case. -/
def IsRecased (v v' : String × String) : Prop :=
  sameName v.1.toList v'.1.toList = true ∧ v'.2 = v.2

/-- Other variables than those with these names. -/
def AreNoneOf (names : List String) (vars : List (String × String)) : Prop :=
  ∀ v ∈ vars, ∀ name ∈ names, sameName v.1.toList name.toList = false

/-- Variables as they may be written down anew: their names in any case, other variables than those
with these names added, and all of them in any order. -/
def IsAnew (names : List String) (vars vars' : List (String × String)) : Prop :=
  ∃ recased added, List.Forall₂ IsRecased vars recased ∧ AreNoneOf names added ∧
    (recased ++ added).Perm vars'

/-- Variables that are named so agree on the value. -/
def AgreeOn (vars : List (String × String)) (name : String) : Prop :=
  ∀ v ∈ vars, ∀ v' ∈ vars, sameName v.1.toList name.toList = true →
    sameName v'.1.toList name.toList = true → v.2 = v'.2

theorem sameName_symm {a b : List Char} (h : sameName a b = true) : sameName b a = true := by
  simp only [sameName, decide_eq_true_eq] at h ⊢
  exact h.symm

theorem sameName_trans {a b c : List Char} (h : sameName a b = true) (h' : sameName b c = true) :
    sameName a c = true := by
  simp only [sameName, decide_eq_true_eq] at h h' ⊢
  exact h.trans h'

theorem AreDistinct.agreeOn (h : AreDistinct vars) (name : String) : AgreeOn vars name := by
  have hnever : ∀ v v' : String × String, sameName v.1.toList v'.1.toList = false →
      sameName v.1.toList name.toList = true → sameName v'.1.toList name.toList = true → False :=
    fun v v' hother hname hname' =>
      nomatch (sameName_trans hname (sameName_symm hname')).symm.trans hother
  have hagree : vars.Pairwise fun v v' => sameName v.1.toList name.toList = true →
      sameName v'.1.toList name.toList = true → v.2 = v'.2 :=
    h.imp fun hother hname hname' => (hnever _ _ hother hname hname').elim
  have hflip : vars.Pairwise (flip fun v v' => sameName v.1.toList name.toList = true →
      sameName v'.1.toList name.toList = true → v.2 = v'.2) :=
    h.imp fun hother hname hname' => (hnever _ _ hother hname' hname).elim
  intro v hv v' hv'
  exact hagree.forall_of_forall_of_flip (fun _ _ _ _ => rfl) hflip hv hv'

/-- There is a variable with a name and a value. -/
def Sets (vars : List (String × String)) (name value : String) : Prop :=
  ∃ v ∈ vars, sameName v.1.toList name.toList = true ∧ v.2 = value

theorem firstNamed_eq_some_iff (h : AgreeOn vars name) :
    firstNamed vars name = some value ↔ Sets vars name value := by
  rw [firstNamed, Option.map_eq_some_iff]
  constructor
  · rintro ⟨v, hv, rfl⟩
    exact ⟨v, List.mem_of_find?_eq_some hv, by simpa using List.find?_some hv, rfl⟩
  · rintro ⟨v, hv, hname, rfl⟩
    rcases hfound : vars.find? fun v => sameName v.1.toList name.toList with _ | v'
    · exact absurd hname (List.find?_eq_none.1 hfound v hv)
    · have hname' : sameName v'.1.toList name.toList = true := by simpa using List.find?_some hfound
      exact ⟨v', hfound, h v' (List.mem_of_find?_eq_some hfound) v hv hname' hname⟩

theorem sets_recased {recased : List (String × String)} (h : List.Forall₂ IsRecased vars recased) :
    Sets recased name value ↔ Sets vars name value := by
  induction h with
  | nil => rfl
  | @cons v v' vars recased hv _ ih =>
    have hhead : (sameName v'.1.toList name.toList = true ∧ v'.2 = value) ↔
        sameName v.1.toList name.toList = true ∧ v.2 = value := by
      rw [hv.2]
      exact and_congr_left' ⟨sameName_trans hv.1, sameName_trans (sameName_symm hv.1)⟩
    simp only [Sets, List.exists_mem_cons_iff] at ih ⊢
    rw [hhead, ih]

/-- What is written down anew sets the same variables with these names. -/
theorem IsAnew.sets_iff (h : IsAnew names vars vars') (hname : name ∈ names) :
    Sets vars' name value ↔ Sets vars name value := by
  obtain ⟨recased, added, hrecased, hadded, hperm⟩ := h
  have hnone : ¬ Sets added name value := by
    rintro ⟨v, hv, hsame, -⟩
    exact nomatch hsame.symm.trans (hadded v hv name hname)
  have happend : Sets (recased ++ added) name value ↔ Sets recased name value := by
    simp only [Sets, List.mem_append, or_and_right, exists_or]
    exact or_iff_left hnone
  rw [← sets_recased hrecased, ← happend]
  simp only [Sets, hperm.mem_iff]

theorem IsAnew.firstNamed_eq (h : IsAnew names vars vars') (hdistinct : AreDistinct vars)
    (hname : name ∈ names) : firstNamed vars' name = firstNamed vars name := by
  have hagree := hdistinct.agreeOn name
  have hagree' : AgreeOn vars' name := by
    intro v hv v' hv' hsame hsame'
    have hset := (h.sets_iff hname).1 ⟨v, hv, hsame, rfl⟩
    have hset' := (h.sets_iff hname).1 ⟨v', hv', hsame', rfl⟩
    rw [← firstNamed_eq_some_iff hagree] at hset hset'
    exact Option.some.inj (hset.symm.trans hset')
  refine Option.ext fun value => ?_
  rw [firstNamed_eq_some_iff hagree', firstNamed_eq_some_iff hagree, h.sets_iff hname]

end EnvironmentDump

open EnvironmentDump

theorem Platform.ofWindowsEnvironment_congr {dump dump' : String}
    (h : ∀ name ∈ ["OS", "PROCESSOR_ARCHITECTURE"], value? dump' name = value? dump name) :
    ofWindowsEnvironment dump' = ofWindowsEnvironment dump := by
  unfold ofWindowsEnvironment
  rw [h "OS" (by simp), h "PROCESSOR_ARCHITECTURE" (by simp)]

namespace Docker

theorem windowsProperties_congr {dump dump' : String}
    (h : ∀ name ∈ ["USERPROFILE", "USERNAME"], value? dump' name = value? dump name) :
    windowsProperties dump' = windowsProperties dump := by
  unfold windowsProperties known
  rw [h "USERPROFILE" (by simp), h "USERNAME" (by simp)]

/-- A container whose client, asked for the environment of the container, gives this dump. -/
def Dumps {ω : Type} (d : Docker) (host : Host ω) (w : ω) (dump : String) : Prop :=
  ((d.ask host ["cmd", "/c", "set"]).outcome w).1 = .ok dump

theorem Dumps.probeWindows_fst {ω : Type} {d : Docker} {host : Host ω} {w : ω} {dump : String}
    (h : d.Dumps host w dump) :
    ((d.probeWindows host).outcome w).1 = windowsProperties dump := by
  have ho : (d.ask host ["cmd", "/c", "set"]).outcome w =
      (.ok dump, ((d.ask host ["cmd", "/c", "set"]).outcome w).2) := Prod.ext h rfl
  rw [probeWindows_eq, Effect.outcome_bind_ok ho, Effect.outcome_ofExcept]

end Docker

/-- However an environment is printed, a variable is looked up by its name, and the first one with
the name counts. Where no two names are the same up to case, what the platform and the user of a
container are taken for depends on four variables only, each of them on two: it does not change with
the order of the lines, the case of the names, the ends of the lines, or any other variable. -/
theorem windowsEnvironment_printed {p : Printout} (hp : p.IsPrintable) :
    (∀ name, value? p.dump name = firstNamed p.settings name) ∧
    (AreDistinct p.settings → ∀ p' : Printout, p'.IsPrintable →
      (IsAnew ["OS", "PROCESSOR_ARCHITECTURE"] p.settings p'.settings →
        Platform.ofWindowsEnvironment p'.dump = Platform.ofWindowsEnvironment p.dump) ∧
      (IsAnew ["USERPROFILE", "USERNAME"] p.settings p'.settings →
        ∀ {ω ω' : Type} (d d' : Docker) (host : Host ω) (host' : Host ω') (w : ω) (w' : ω'),
          d.Dumps host w p.dump → d'.Dumps host' w' p'.dump →
          ((d'.probeWindows host').outcome w').1 = ((d.probeWindows host).outcome w).1)) := by
  refine ⟨hp.value?_dump, fun hdistinct p' hp' => ?_⟩
  have hvalue : ∀ {names : List String}, IsAnew names p.settings p'.settings →
      ∀ name ∈ names, value? p'.dump name = value? p.dump name := by
    intro names hanew name hname
    rw [hp.value?_dump, hp'.value?_dump, hanew.firstNamed_eq hdistinct hname]
  refine ⟨fun hanew => Platform.ofWindowsEnvironment_congr (hvalue hanew), ?_⟩
  intro hanew ω ω' d d' host host' w w' hdump hdump'
  rw [hdump.probeWindows_fst, hdump'.probeWindows_fst,
    Docker.windowsProperties_congr (hvalue hanew)]

section Kiosk

/-- An environment between lines that are none of its variables. -/
def kiosk : Printout where
  ended := [(.setting ("Path", "C:\\bin;D:\\a=b"), .returnLineFeed), (.other "\r", .lineFeed),
    (.setting ("OS", "Windows_NT"), .lineFeed), (.setting ("Empty", ""), .returnLineFeed),
    (.other "no variable", .returnLineFeed)]
  last := some (.setting ("Processor_Architecture", "AMD64"))

/-- The same environment, sorted, in capitals, and with one more variable. -/
def kioskAnew : Printout where
  ended := [(.setting ("EMPTY", ""), .lineFeed), (.setting ("OS", "Windows_NT"), .lineFeed),
    (.setting ("PATH", "C:\\bin;D:\\a=b"), .lineFeed),
    (.setting ("PROCESSOR_ARCHITECTURE", "AMD64"), .lineFeed),
    (.setting ("PROCESSOR_LEVEL", "6"), .lineFeed)]
  last := none

theorem isAnew_kiosk :
    IsAnew ["OS", "PROCESSOR_ARCHITECTURE"] kiosk.settings kioskAnew.settings := by
  refine ⟨[("PATH", "C:\\bin;D:\\a=b"), ("OS", "Windows_NT"), ("EMPTY", ""),
    ("PROCESSOR_ARCHITECTURE", "AMD64")], [("PROCESSOR_LEVEL", "6")], ?_, ?_, ?_⟩
  · repeat' constructor
  · intro v hv
    rw [List.mem_singleton.1 hv]
    decide
  · decide

theorem windowsEnvironment_printed_kiosk :
    value? kiosk.dump "path" = some "C:\\bin;D:\\a=b" ∧ value? kiosk.dump "empty" = some "" ∧
      Platform.ofWindowsEnvironment kioskAnew.dump = Platform.ofWindowsEnvironment kiosk.dump := by
  obtain ⟨hvalue, hanew⟩ := @windowsEnvironment_printed kiosk (by decide)
  exact ⟨hvalue "path", hvalue "empty", (hanew (by decide) kioskAnew (by decide)).1 isAnew_kiosk⟩

end Kiosk

end RemoteAgent
