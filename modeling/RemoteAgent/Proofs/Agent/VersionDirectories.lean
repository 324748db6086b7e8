import RemoteAgent.Proofs.Agent.Housekeeping
import RemoteAgent.Proofs.Version.Text

/-! # Directories of versions

The directory of a version is told by the version's text, and no other version has the same text. So
of all versions a sweep spares the running one, and the others only as long as they are used.
-/

namespace RemoteAgent.Agent

open FileTree RemoteAgent.Path

variable {t t' : FileTree} {agents : Path} {now : Timestamp} {l : Location} {name : String}
  {passed : List Location} {v : Version} {removed : List Path}

theorem isVersion_text_iff :
    IsVersion t l v.text ↔ v ≠ Version.current ∧ t.IsDirectoryAt (l ++ [v.text]) := by
  constructor
  · rintro ⟨hdirectory, hcurrent⟩
    exact ⟨fun h => hcurrent (h ▸ rfl), hdirectory⟩
  · rintro ⟨hcurrent, hdirectory⟩
    exact ⟨hdirectory, fun h => hcurrent (Version.text_inj.1 h)⟩

/-- A version is installed, with an executable that has been idle for too long. -/
def IsAbandoned (t : FileTree) (agents : Path) (now : Timestamp) (v : Version) : Prop :=
  ∃ passed l, t.Leads agents passed l ∧ t.IsDirectoryAt (l ++ [v.text]) ∧
    IsUnused t agents now v.text

theorem isIdleVersion_text_iff :
    IsIdleVersion t agents now v.text ↔ v ≠ Version.current ∧ IsAbandoned t agents now v := by
  simp only [IsIdleVersion, IsAbandoned, isVersion_text_iff]
  constructor
  · rintro ⟨passed, l, hleads, ⟨hcurrent, hdirectory⟩, hunused⟩
    exact ⟨hcurrent, passed, l, hleads, hdirectory, hunused⟩
  · rintro ⟨hcurrent, passed, l, hleads, hdirectory, hunused⟩
    exact ⟨passed, l, hleads, ⟨hcurrent, hdirectory⟩, hunused⟩

section Looking

variable {names : List String} {e : Entry} {entries : List Entry}

/-- An entry that is removed if a sweep looks at it now. -/
structure IsRemovable (t : FileTree) (agents : Path) (now : Timestamp) (e : Entry) : Prop where
  notCurrent : e.name ≠ Version.current.text
  isDirectory : e.isDirectory = true
  unused : IsUnused t agents now e.name

/-- What becomes of an entry that a sweep looks at, some entries having been removed. -/
theorem run_sweepEntry_cases (hwf : t.WellFormed) (hleads : t.Leads agents passed l)
    (he : e ∈ t.entries l) (names : List String) :
    IsRemovable (t.clearAll (places l names)) agents now e ∧
      (sweepEntry agents now e).run (t.clearAll (places l names)) =
        (some (agents.join e.name), t.clearAll (places l (names ++ [e.name]))) ∨
    ¬ IsRemovable (t.clearAll (places l names)) agents now e ∧
      (sweepEntry agents now e).run (t.clearAll (places l names)) =
        (none, t.clearAll (places l names)) := by
  by_cases hremovable : IsRemovable (t.clearAll (places l names)) agents now e
  · refine .inl ⟨hremovable, ?_⟩
    obtain ⟨hcurrent, hisDirectory, hunused⟩ := hremovable
    obtain ⟨_, _, ⟨_, _, hexecutable, -, -⟩, -⟩ := id hunused
    have hroot := root_notMem_places l names
    obtain ⟨m, hentered⟩ := entered_of_leads (text_ne_empty_of_requirePath hleads.short)
      (hwf.named.isName_of_mem_entries he) hexecutable
    -- Removals lead the way to no other directory.
    obtain ⟨_, hleads'⟩ := hentered.leads
    obtain ⟨-, rfl⟩ := hleads.unique (hleads'.of_clearAll hroot)
    have hdirectory : (t.clearAll (places l names)).IsDirectoryAt (l ++ [e.name]) := by
      obtain ⟨node, hfound⟩ := hentered.found
      obtain ⟨node', hfind, hnode⟩ := hwf.mem_entries_iff.1 he
      cases (find?_of_clearAll hroot hfound).symm.trans hfind
      cases node with
      | directory accessed => exact ⟨accessed, hfound⟩
      | file | link => exact nomatch hisDirectory.symm.trans hnode
    rw [run_sweepEntry_of_unused hcurrent hisDirectory hunused hentered hdirectory, clear_places]
  · exact .inr ⟨hremovable, run_sweepEntry_of_used fun hcurrent hisDirectory hunused =>
      hremovable ⟨hcurrent, hisDirectory, hunused⟩⟩

/-- Whatever the tree, a sweep removes none but other versions than the running one. -/
theorem run_sweepEntries_spares (hwf : t.WellFormed) (hleads : t.Leads agents passed l)
    (hentries : ∀ e ∈ entries, e ∈ t.entries l) (names : List String) :
    ∃ more : List String, (∀ name ∈ more, IsName name ∧ name ≠ Version.current.text) ∧
      (sweepEntries agents now entries).run (t.clearAll (places l names)) =
        (more.map agents.join, t.clearAll (places l (names ++ more))) := by
  induction entries generalizing names with
  | nil => exact ⟨[], nofun, by rw [List.append_nil]; rfl⟩
  | cons e entries ih =>
    obtain ⟨he, hentries⟩ := List.forall_mem_cons.1 hentries
    rcases @run_sweepEntry_cases _ _ now _ _ _ hwf hleads he names with
      ⟨hremovable, hrun⟩ | ⟨-, hrun⟩
    · obtain ⟨more, hmore, hrest⟩ := ih hentries (names ++ [e.name])
      refine ⟨e.name :: more, List.forall_mem_cons.2 ⟨?_, hmore⟩, ?_⟩
      · exact ⟨hwf.named.isName_of_mem_entries he, hremovable.notCurrent⟩
      · rw [run_sweepEntries_cons hrun hrest, List.append_assoc]
        rfl
    · obtain ⟨more, hmore, hrest⟩ := ih hentries names
      exact ⟨more, hmore, run_sweepEntries_cons hrun hrest⟩

theorem housekeep_spares (hwf : t.WellFormed)
    (h : (housekeep agents now).run t = (.ok removed, t')) :
    ∃ l names, (names ≠ [] → ∃ passed, t.Leads agents passed l) ∧
      (∀ name ∈ names, IsName name ∧ name ≠ Version.current.text) ∧
      removed = names.map agents.join ∧ t' = t.clearAll (places l names) := by
  rcases housekeep_cases h with ⟨passed, l, hleads, hdirectory⟩ | ⟨-, hrun⟩
  · have hlist := list_ok_iff.2 ⟨passed, l, hleads, hdirectory, rfl⟩
    obtain ⟨names, hnames, hrun⟩ : ∃ names : List String, _ ∧
        (sweepEntries agents now (t.entries l)).run t = _ :=
      run_sweepEntries_spares hwf hleads (fun _ he => he) []
    unfold housekeep at h
    rw [run_perform_bind, hlist, list_snd] at h
    dsimp only at h
    rw [FileProgram.run_bind, hrun] at h
    cases h
    exact ⟨l, names, fun _ => ⟨passed, hleads⟩, hnames, rfl, rfl⟩
  · cases h.symm.trans (hrun now)
    exact ⟨[], [], nofun, nofun, rfl, rfl⟩

end Looking

section Sweeping

theorem relative_text (v : Version) : v.text.toList.head? ≠ some '/' := by
  obtain ⟨d, hd⟩ := v.exists_head?_text
  rw [hd, ne_eq, Option.some_inj]
  exact Digits.digitChar_ne rfl d

/-- The directory of the running version is not removed, and everything in it stays. -/
theorem housekeep_keeps_current (hwf : t.WellFormed)
    (h : (housekeep agents now).run t = (.ok removed, t')) :
    agents.join Version.current.text ∉ removed ∧
      ∀ passed l, t.Leads agents passed l → ∀ k, l ++ [Version.current.text] <+: k →
        t'.find? k = t.find? k := by
  obtain ⟨l, names, hleads, hnames, rfl, rfl⟩ := housekeep_spares hwf h
  constructor
  · intro hmem
    obtain ⟨name, hname, hjoin⟩ := List.mem_map.1 hmem
    obtain ⟨hisName, hcurrent⟩ := hnames name hname
    exact hcurrent ((join_inj hisName.relative (relative_text _)).1 hjoin)
  · rintro passed m hm k ⟨below, rfl⟩
    refine find?_clearAll_of_avoids (avoids_places_iff.2 fun name hname hbelow => ?_)
    obtain ⟨passed', hleads'⟩ := hleads (List.ne_nil_of_mem hname)
    obtain ⟨-, rfl⟩ := hm.unique hleads'
    rw [List.append_assoc, List.prefix_append_right_inj, List.singleton_append,
      List.cons_prefix_cons] at hbelow
    exact (hnames name hname).2 hbelow.1

/-- A sweep that succeeds has removed the directories of idle versions. -/
theorem mem_removed_iff (hwf : t.WellFormed) (huntangled : Untangled t agents)
    (h : (housekeep agents now).run t = (.ok removed, t')) (hname : name.toList.head? ≠ some '/') :
    agents.join name ∈ removed ↔ IsIdleVersion t agents now name := by
  rcases housekeep_cases h with ⟨passed, l, hleads, hdirectory⟩ | ⟨hnone, hrun⟩
  · cases h.symm.trans (run_housekeep hwf huntangled hleads hdirectory)
    have hexact := (@swept_of_leads _ _ now _ _ hwf hleads).exact
    constructor
    · intro hmem
      obtain ⟨other, hother, hjoin⟩ := List.mem_map.1 hmem
      have hisName : IsName other := by
        obtain ⟨e, he, rfl⟩ := List.mem_map.1 (mem_idleVersions_iff.1 hother).1
        exact hwf.named.isName_of_mem_entries he
      rw [← (join_inj hisName.relative hname).1 hjoin]
      exact (hexact other).1 hother
    · intro hidle
      exact List.mem_map_of_mem ((hexact name).2 hidle)
  · cases h.symm.trans (hrun now)
    exact iff_of_false nofun fun hidle => hnone (hidle.listable hwf)

end Sweeping

/-- Versions have the same text only if they are equal, and the digits of a number are read as this
number. So a sweep spares the directory of the running version, whatever the tree, and no directory
for being that of another one. -/
theorem versions_told_apart :
    (∀ v w : Version, v.text = w.text ↔ v = w) ∧
    (∀ n : UInt32, Version.component (toString n) = n ∧
      ∀ front c back, (toString n).toList = front ++ c :: back →
        Version.ReadsOn (Version.component (String.ofList front)) c) ∧
    (∀ t agents now removed t', t.WellFormed →
      (housekeep agents now).run t = (.ok removed, t') →
      agents.join Version.current.text ∉ removed ∧
        ∀ passed l, t.Leads agents passed l → ∀ k, l ++ [Version.current.text] <+: k →
          t'.find? k = t.find? k) ∧
    (∀ (t : FileTree) agents now passed l (v : Version), t.WellFormed → t.Leads agents passed l →
      t.IsDirectoryAt (l ++ [v.text]) → IsUnused t agents now v.text →
      (sweepEntry agents now ⟨v.text, true⟩).run t =
        if v = Version.current then (none, t)
        else (some (agents.join v.text), t.clear (l ++ [v.text]))) ∧
    ∀ t agents now removed t', t.WellFormed → Untangled t agents →
      (housekeep agents now).run t = (.ok removed, t') →
      ∀ v : Version, agents.join v.text ∈ removed ↔
        v ≠ Version.current ∧ IsAbandoned t agents now v := by
  refine ⟨fun _ _ => Version.text_inj, fun n => ⟨Version.component_toString n, ?_⟩, ?_, ?_, ?_⟩
  · exact fun _ _ _ => Version.readsOn_toString
  · exact fun _ _ _ _ _ => housekeep_keeps_current
  · intro t agents now passed l v hwf hleads hdirectory hunused
    obtain ⟨accessed, hfind⟩ := hdirectory
    have he : ⟨v.text, true⟩ ∈ t.entries l := hwf.mem_entries_iff.2 ⟨_, hfind, rfl⟩
    rcases @run_sweepEntry_cases _ _ now _ _ _ hwf hleads he [] with
      ⟨hremovable, hrun⟩ | ⟨hnot, hrun⟩
    · rw [if_neg fun hcurrent => hremovable.notCurrent (congrArg Version.text hcurrent)]
      exact hrun
    · rw [if_pos]
      · exact hrun
      · by_contra hcurrent
        exact hnot ⟨fun htext => hcurrent (Version.text_inj.1 htext), rfl, hunused⟩
  · intro t agents now removed t' hwf huntangled h v
    rw [mem_removed_iff hwf huntangled h (relative_text v), isIdleVersion_text_iff]

section Shelf

/-- The running version and one that has the same numbers and a tag, both idle for a nanosecond too
long. -/
def shelf : FileTree where
  nodes := [
    (["agents"], .directory ⟨0⟩),
    (["agents", "0.1.0"], .directory ⟨0⟩),
    (["agents", "0.1.0", "tether-agent"], .file [1] 493 ⟨0⟩),
    (["agents", "0.1.0-rc.1"], .directory ⟨0⟩),
    (["agents", "0.1.0-rc.1", "tether-agent"], .file [2] 493 ⟨0⟩)]
  mounts := []
  now := ⟨2592000000000001⟩

def candidate : Version :=
  ⟨0, 1, 0, some "rc.1"⟩

theorem shelf_wellFormed : shelf.WellFormed :=
  ⟨by decide, by decide⟩

theorem shelf_leads : shelf.Leads ⟨"agents"⟩ [["agents"]] ["agents"] :=
  ⟨by decide, rfl, .enter ⟨_, rfl⟩ rfl rfl nofun .arrived⟩

theorem shelf_version (h : IsVersion shelf ["agents"] name) : name = "0.1.0-rc.1" := by
  obtain ⟨⟨accessed, hfind⟩, hcurrent⟩ := h
  have hdirectories : name = "0.1.0" ∧ accessed = ⟨0⟩ ∨ name = "0.1.0-rc.1" ∧ accessed = ⟨0⟩ := by
    simpa [shelf] using mem_of_find? (by simp) hfind
  rcases hdirectories with ⟨rfl, -⟩ | ⟨rfl, -⟩
  · exact absurd rfl hcurrent
  · rfl

theorem shelf_untangled : Untangled shelf ⟨"agents"⟩ := by
  intro passed l name other through m hleads hname hother hne
  obtain ⟨-, rfl⟩ := hleads.way.unique shelf_leads.way
  exact absurd ((shelf_version hname).trans (shelf_version hother).symm) hne

theorem shelf_executable : shelf.Leads (executablePath ⟨"agents"⟩ "0.1.0-rc.1")
    [["agents"], ["agents", "0.1.0-rc.1"], ["agents", "0.1.0-rc.1", "tether-agent"]]
    ["agents", "0.1.0-rc.1", "tether-agent"] :=
  ⟨by decide, rfl, .enter ⟨_, rfl⟩ rfl rfl nofun
    (.enter ⟨_, rfl⟩ rfl rfl nofun (.enter ⟨_, rfl⟩ rfl rfl nofun .arrived))⟩

theorem shelf_unused : IsUnused shelf ⟨"agents"⟩ shelf.now candidate.text :=
  ⟨_, _, ⟨_, _, shelf_executable, rfl, rfl⟩, by decide⟩

theorem versions_told_apart_shelf :
    (sweepEntry ⟨"agents"⟩ shelf.now ⟨"0.1.0-rc.1", true⟩).run shelf =
        (some ⟨"agents/0.1.0-rc.1"⟩, shelf.clear ["agents", "0.1.0-rc.1"]) ∧
      ∃ removed t', (housekeep ⟨"agents"⟩ shelf.now).run shelf = (.ok removed, t') ∧
        ⟨"agents/0.1.0"⟩ ∉ removed ∧ ⟨"agents/0.1.0-rc.1"⟩ ∈ removed ∧
        t'.find? ["agents", "0.1.0", "tether-agent"] = some (.file [1] 493 ⟨0⟩) := by
  obtain ⟨-, -, hkeeps, hentry, hexact⟩ := versions_told_apart
  have hrun := @run_housekeep _ _ shelf.now _ _ shelf_wellFormed shelf_untangled shelf_leads
    ⟨_, rfl⟩
  refine ⟨?_, _, _, hrun, ?_, ?_, ?_⟩
  · exact hentry shelf _ shelf.now _ _ candidate shelf_wellFormed shelf_leads ⟨_, rfl⟩ shelf_unused
  · exact (hkeeps _ _ _ _ _ shelf_wellFormed hrun).1
  · exact (hexact _ _ _ _ _ shelf_wellFormed shelf_untangled hrun candidate).2
      ⟨by decide, _, _, shelf_leads, ⟨_, rfl⟩, shelf_unused⟩
  · exact (hkeeps _ _ _ _ _ shelf_wellFormed hrun).2 _ _ shelf_leads
      ["agents", "0.1.0", "tether-agent"] ⟨["tether-agent"], rfl⟩

end Shelf

end RemoteAgent.Agent
