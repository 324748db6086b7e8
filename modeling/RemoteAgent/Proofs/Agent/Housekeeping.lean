import RemoteAgent.Agent.Housekeeping
import RemoteAgent.Proofs.FileTree.Names

/-! # What housekeeping removes

A sweep looks at the entries of the agents directory one after the other, while it removes some of
them. It comes to the same as looking at all of them at first, unless the way to the executable of a
version leads through another version.
-/

namespace RemoteAgent.Agent

open FileTree RemoteAgent.Path

variable {t : FileTree} {agents : Path} {now : Timestamp} {l m : Location} {name : String}
  {passed : List Location} {time : Timestamp}

section Executables

theorem isName_executableName : IsName (executableName ownSystem) := by decide

/-- Where the executable of a version is looked for. -/
def executablePath (agents : Path) (name : String) : Path :=
  (agents.join name).join (executableName ownSystem)

theorem requirePath_of_append {p q : Path} {more : String} (hp : p.text ≠ "")
    (hq : q.text = p.text ++ more) (h : requirePath q = .ok ()) : requirePath p = .ok () := by
  unfold requirePath at h ⊢
  rw [if_neg (by simpa using hp)]
  split at h
  · cases h
  · split at h
    · cases h
    · rw [if_neg]
      rw [hq, String.utf8ByteSize_append] at *
      omega

theorem text_ne_empty_of_requirePath {p : Path} (h : requirePath p = .ok ()) : p.text ≠ "" := by
  rintro hp
  rw [requirePath, hp] at h
  cases h

theorem text_join_ne_empty (p : Path) (hname : IsName name) : (p.join name).text ≠ "" := by
  by_cases hp : p.text = ""
  · unfold join
    rw [if_pos (by simp [hp])]
    exact hname.ne_empty
  · obtain ⟨more, hmore, htext⟩ := text_join hp hname
    rw [htext]
    simp [hmore]

variable (t agents name) in
/-- The agents directory is found, with an entry for a version in it. -/
structure Entered (m : Location) : Prop where
  leads : ∃ passed, t.Leads agents passed m
  directory : t.IsDirectoryAt m
  plain : '\x00' ∉ (agents.join name).text.toList
  slot : t.slot? (agents.join name) = .ok (some (m ++ [name]))
  found : ∃ node, t.find? (m ++ [name]) = some node

/-- Whoever finds the executable of a version has found an entry for the version. -/
theorem entered_of_leads (hagents : agents.text ≠ "") (hname : IsName name)
    (h : t.Leads (executablePath agents name) passed l) : ∃ m, Entered t agents name m := by
  have hjoin := text_join_ne_empty agents hname
  obtain ⟨more, -, hexecutable⟩ := text_join hjoin isName_executableName
  obtain ⟨more', -, htext⟩ := text_join hagents hname
  have hshort := requirePath_of_append hjoin hexecutable h.short
  have hplain : '\x00' ∉ (agents.join name).text.toList := fun hnul => h.plain (by
    rw [executablePath, hexecutable, String.toList_append]
    exact List.mem_append_left _ hnul)
  have hplain' : '\x00' ∉ agents.text.toList := fun hnul => hplain (by
    rw [htext, String.toList_append]
    exact List.mem_append_left _ hnul)
  have hway := h.way
  rw [executablePath, steps_join hjoin isName_executableName, components_join hagents hname,
    List.append_assoc] at hway
  obtain ⟨links, passed₁, m, passed₂, -, hfirst, hsecond⟩ := hway.split
  have hentered : ∀ {node}, t.IsDirectoryAt m → requireName name = .ok () →
      t.find? (m ++ [name]) = some node → Entered t agents name m := fun hd hn hfind =>
    ⟨⟨_, leads_of_components hplain' (requirePath_of_append hagents htext hshort) hfirst hd⟩, hd,
      hplain, (slot?_join hagents hname).2 ⟨hshort, passed₁, m, hfirst, hd, hn, rfl⟩, _, hfind⟩
  refine ⟨m, ?_⟩
  cases hsecond with
  | enter hd hn hfind | follow hd hn hfind =>
    rw [String.ofList_toList] at hn hfind
    exact hentered hd hn hfind

end Executables

section Entries

variable {e : Entry}

/-- The executable of a version can be found, and nobody has used it for too long. -/
def IsUnused (t : FileTree) (agents : Path) (now : Timestamp) (name : String) : Prop :=
  ∃ passed time, t.Accessed (executablePath agents name) passed time ∧
    time.nanoseconds + maximumIdle.nanoseconds < now.nanoseconds

theorem isIdle_iff : isIdle now time = true ↔
    time.nanoseconds + maximumIdle.nanoseconds < now.nanoseconds := by
  unfold isIdle Timestamp.since
  rw [decide_eq_true_iff]
  dsimp only
  omega

theorem run_perform_bind {α : Type} (c : FileCall) (f : Except IoError c.Answer → FileProgram α)
    (t : FileTree) :
    (FileProgram.perform c >>= f).run t =
      (f (c.perform.outcome t).1).run (c.perform.outcome t).2 := rfl

/-- A version that is used, and whatever is no version, stays. -/
theorem run_sweepEntry_of_used
    (h : e.name ≠ Version.current.text → e.isDirectory = true → ¬ IsUnused t agents now e.name) :
    (sweepEntry agents now e).run t = (none, t) := by
  unfold sweepEntry
  split
  · rfl
  next hcandidate =>
    simp only [Bool.or_eq_true, decide_eq_true_eq, Bool.not_eq_true', not_or,
      Bool.not_eq_false] at hcandidate
    rw [run_perform_bind, accessTime_snd]
    split
    · rfl
    next accessed haccessed =>
      obtain ⟨passed, hpassed⟩ := accessTime_ok_iff.1 haccessed
      rw [if_pos]
      · rfl
      · rw [Bool.not_eq_true', Bool.eq_false_iff]
        exact fun hidle =>
          h hcandidate.1 hcandidate.2 ⟨passed, accessed, hpassed, isIdle_iff.1 hidle⟩

/-- An unused version is removed with all that is below it. -/
theorem run_sweepEntry_of_unused (hcurrent : e.name ≠ Version.current.text)
    (hdirectory : e.isDirectory = true) (hunused : IsUnused t agents now e.name)
    (hentered : Entered t agents e.name m)
    (hfind : t.IsDirectoryAt (m ++ [e.name])) :
    (sweepEntry agents now e).run t = (some (agents.join e.name), t.clear (m ++ [e.name])) := by
  obtain ⟨passed, time, haccessed, hidle⟩ := hunused
  obtain ⟨accessed, hfind⟩ := hfind
  have htime := accessTime_ok_iff.2 ⟨passed, haccessed⟩
  have hremoved := outcome_removeTree hentered.plain hentered.slot hfind nofun
  unfold sweepEntry
  rw [if_neg (by simp [hcurrent, hdirectory]), run_perform_bind, accessTime_snd]
  unfold executablePath at htime
  rw [htime]
  dsimp only
  rw [if_neg (by simp [isIdle_iff.2 hidle]), run_perform_bind, hremoved]
  rfl

theorem run_sweepEntries_of_used {entries : List Entry}
    (h : ∀ e ∈ entries, e.name ≠ Version.current.text → e.isDirectory = true →
      ¬ IsUnused t agents now e.name) :
    (sweepEntries agents now entries).run t = ([], t) := by
  induction entries with
  | nil => rfl
  | cons e entries ih =>
    obtain ⟨he, hentries⟩ := List.forall_mem_cons.1 h
    rw [sweepEntries, FileProgram.run_bind, run_sweepEntry_of_used he, FileProgram.run_bind,
      ih hentries]
    rfl

theorem run_sweepEntries_cons {entries : List Entry} {s v : FileTree} {removed : Option Path}
    {more : List Path} (he : (sweepEntry agents now e).run t = (removed, s))
    (hentries : (sweepEntries agents now entries).run s = (more, v)) :
    (sweepEntries agents now (e :: entries)).run t = (removed.toList ++ more, v) := by
  rw [sweepEntries, FileProgram.run_bind, he, FileProgram.run_bind, hentries]
  rfl

end Entries

section Sweeping

variable {names : List String} {e : Entry}

/-- A directory of the agents directory that is not that of the running version. -/
structure IsVersion (t : FileTree) (l : Location) (name : String) : Prop where
  directory : t.IsDirectoryAt (l ++ [name])
  notCurrent : name ≠ Version.current.text

/-- A version in the agents directory with an executable that has been idle for too long. -/
def IsIdleVersion (t : FileTree) (agents : Path) (now : Timestamp) (name : String) : Prop :=
  ∃ passed l, t.Leads agents passed l ∧ IsVersion t l name ∧ IsUnused t agents now name

/-- The way to the executable of a version, from the root on, never leads through another version.
-/
def Untangled (t : FileTree) (agents : Path) : Prop :=
  ∀ {passed l name other through m}, t.Leads agents passed l → IsVersion t l name →
    IsVersion t l other → name ≠ other → t.Leads (executablePath agents name) through m →
    ∀ k ∈ through, ¬ l ++ [other] <+: k

/-- Where versions stand. -/
def places (l : Location) (names : List String) : List Location :=
  names.map fun name => l ++ [name]

theorem root_notMem_places (l : Location) (names : List String) : [] ∉ places l names := by
  simp [places]

theorem avoids_places_iff {k : Location} :
    Avoids (places l names) k ↔ ∀ name ∈ names, ¬ l ++ [name] <+: k := by
  refine ⟨fun h name hname => h.notBelow _ (List.mem_map_of_mem hname), fun h => ?_⟩
  refine ⟨root_notMem_places l names, fun k hk => ?_⟩
  obtain ⟨name, hname, rfl⟩ := List.mem_map.1 hk
  exact h name hname

theorem clear_places (t : FileTree) (l : Location) (names : List String) (name : String) :
    (t.clearAll (places l names)).clear (l ++ [name]) =
      t.clearAll (places l (names ++ [name])) := by
  simp [clearAll, places]

theorem IsUnused.of_clearAll {ls : List Location} (hroot : [] ∉ ls)
    (h : IsUnused (t.clearAll ls) agents now name) : IsUnused t agents now name := by
  obtain ⟨passed, time, ⟨l, node, hleads, hfind, htime⟩, hidle⟩ := h
  exact ⟨passed, time,
    ⟨l, node, hleads.of_clearAll hroot, find?_of_clearAll hroot hfind, htime⟩, hidle⟩

theorem IsUnused.mono {later : Timestamp} (h : IsUnused t agents now name)
    (hlater : now.nanoseconds ≤ later.nanoseconds) : IsUnused t agents later name := by
  obtain ⟨passed, time, haccessed, hidle⟩ := h
  exact ⟨passed, time, haccessed, Int.lt_of_lt_of_le hidle hlater⟩

/-- A version that is found unused at first is still found so when others are gone. -/
theorem IsUnused.clearAll (huntangled : Untangled t agents) (hleads : t.Leads agents passed l)
    (hversion : IsVersion t l name) (hothers : ∀ other ∈ names, IsVersion t l other ∧ name ≠ other)
    (h : IsUnused t agents now name) : IsUnused (t.clearAll (places l names)) agents now name := by
  obtain ⟨through, time, ⟨m, node, hexecutable, hfind, htime⟩, hidle⟩ := h
  have havoids : ∀ k ∈ through, Avoids (places l names) k := by
    intro k hk
    refine avoids_places_iff.2 fun other hother => ?_
    obtain ⟨hv, hne⟩ := hothers other hother
    exact huntangled hleads hversion hv hne hexecutable k hk
  obtain ⟨hleft, hm⟩ := hexecutable.clearAll (root_notMem_places l names) havoids
  exact ⟨through, time, ⟨m, node, hleft, hm.trans hfind, htime⟩, hidle⟩

theorem run_sweepEntry (hagents : agents.text ≠ "") (hwf : t.WellFormed)
    (huntangled : Untangled t agents) (hleads : t.Leads agents passed l) (he : e ∈ t.entries l)
    (hothers : ∀ other ∈ names, IsVersion t l other ∧ e.name ≠ other) :
    (IsVersion t l e.name ∧ IsUnused t agents now e.name ∧
      (sweepEntry agents now e).run (t.clearAll (places l names)) =
        (some (agents.join e.name), t.clearAll (places l (names ++ [e.name])))) ∨
    (¬ (IsVersion t l e.name ∧ IsUnused t agents now e.name) ∧
      (sweepEntry agents now e).run (t.clearAll (places l names)) =
        (none, t.clearAll (places l names))) := by
  have hname := hwf.named.isName_of_mem_entries he
  obtain ⟨node, hfind, hdirectory⟩ := hwf.mem_entries_iff.1 he
  by_cases hidle : IsVersion t l e.name ∧ IsUnused t agents now e.name
  · obtain ⟨hversion, hunused⟩ := hidle
    refine .inl ⟨hversion, hunused, ?_⟩
    have hunused' := hunused.clearAll huntangled hleads hversion hothers
    obtain ⟨_, _, ⟨_, _, hexecutable, -, -⟩, -⟩ := id hunused'
    obtain ⟨m, hentered⟩ := entered_of_leads hagents hname hexecutable
    obtain ⟨_, hleads'⟩ := hentered.leads
    obtain ⟨-, rfl⟩ := hleads.unique (hleads'.of_clearAll (root_notMem_places l names))
    obtain ⟨accessed, haccessed⟩ := hversion.directory
    have hisDirectory : e.isDirectory = true := by
      cases haccessed.symm.trans hfind
      exact hdirectory
    have havoids : Avoids (places l names) (l ++ [e.name]) := by
      refine avoids_places_iff.2 fun other hother hbelow => (hothers other hother).2 ?_
      exact Eq.symm (by simpa using (List.prefix_append_right_inj l).1 hbelow)
    rw [run_sweepEntry_of_unused hversion.notCurrent hisDirectory hunused' hentered
      ⟨accessed, (find?_clearAll_of_avoids havoids).trans haccessed⟩, clear_places]
  · refine .inr ⟨hidle, run_sweepEntry_of_used fun hcurrent hisDirectory hunused => hidle ?_⟩
    refine ⟨⟨?_, hcurrent⟩, hunused.of_clearAll (root_notMem_places l names)⟩
    cases node with
    | directory accessed => exact ⟨accessed, hfind⟩
    | file | link => exact nomatch hisDirectory.symm.trans hdirectory

open scoped Classical in
/-- Those of some names that are idle versions in the agents directory. -/
noncomputable def idleVersions (t : FileTree) (agents : Path) (l : Location) (now : Timestamp)
    (names : List String) : List String :=
  names.filter fun name => IsVersion t l name ∧ IsUnused t agents now name

theorem mem_idleVersions_iff : name ∈ idleVersions t agents l now names ↔
    name ∈ names ∧ IsVersion t l name ∧ IsUnused t agents now name := by
  simp [idleVersions]

/-- What a sweep comes to, some versions having been removed. -/
theorem run_sweepEntries (hagents : agents.text ≠ "") (hwf : t.WellFormed)
    (huntangled : Untangled t agents) (hleads : t.Leads agents passed l) {entries : List Entry}
    (hentries : ∀ e ∈ entries, e ∈ t.entries l) (hnodup : (entries.map (·.name)).Nodup)
    (hnames : ∀ other ∈ names, IsVersion t l other ∧ other ∉ entries.map (·.name)) :
    (sweepEntries agents now entries).run (t.clearAll (places l names)) =
      ((idleVersions t agents l now (entries.map (·.name))).map agents.join,
        t.clearAll
          (places l (names ++ idleVersions t agents l now (entries.map (·.name))))) := by
  induction entries generalizing names with
  | nil =>
    rw [List.map_nil, idleVersions, List.filter_nil, List.append_nil]
    rfl
  | cons e entries ih =>
    obtain ⟨he, hentries⟩ := List.forall_mem_cons.1 hentries
    rw [List.map_cons, List.nodup_cons] at hnodup
    obtain ⟨hfresh, hnodup⟩ := hnodup
    have hothers : ∀ other ∈ names, IsVersion t l other ∧ e.name ≠ other := by
      intro other hother
      obtain ⟨hv, hnot⟩ := hnames other hother
      exact ⟨hv, fun heq => hnot (by simp [heq])⟩
    have hrest : ∀ other ∈ names, IsVersion t l other ∧ other ∉ entries.map (·.name) := by
      intro other hother
      obtain ⟨hv, hnot⟩ := hnames other hother
      exact ⟨hv, fun hmem => hnot (List.mem_cons_of_mem _ hmem)⟩
    rcases @run_sweepEntry _ _ now _ _ _ _ hagents hwf huntangled hleads he hothers with
      ⟨hversion, hunused, hrun⟩ | ⟨hnot, hrun⟩
    · have hmore : ∀ other ∈ names ++ [e.name],
          IsVersion t l other ∧ other ∉ entries.map (·.name) :=
        List.forall_mem_append.2 ⟨hrest, List.forall_mem_singleton.2 ⟨hversion, hfresh⟩⟩
      have hidle : idleVersions t agents l now ((e :: entries).map (·.name)) =
          e.name :: idleVersions t agents l now (entries.map (·.name)) :=
        List.filter_cons_of_pos (by simp [hversion, hunused])
      rw [run_sweepEntries_cons hrun (ih hentries hnodup hmore), hidle, List.append_assoc]
      rfl
    · have hidle : idleVersions t agents l now ((e :: entries).map (·.name)) =
          idleVersions t agents l now (entries.map (·.name)) :=
        List.filter_cons_of_neg (by simpa using hnot)
      rw [run_sweepEntries_cons hrun (ih hentries hnodup hrest), hidle]
      rfl

/-- The names in the agents directory, in the order of its listing. -/
def listedNames (t : FileTree) (l : Location) : List String :=
  (t.entries l).map (·.name)

/-- Where the agents directory can be listed, a sweep succeeds, and takes out all idle versions. -/
theorem run_housekeep (hwf : t.WellFormed) (huntangled : Untangled t agents)
    (hleads : t.Leads agents passed l) (hdirectory : t.IsDirectoryAt l) :
    (housekeep agents now).run t =
      (.ok ((idleVersions t agents l now (listedNames t l)).map agents.join),
        t.clearAll (places l (idleVersions t agents l now (listedNames t l)))) := by
  have hlist := list_ok_iff.2 ⟨passed, l, hleads, hdirectory, rfl⟩
  have hrun : (sweepEntries agents now (t.entries l)).run t = _ :=
    @run_sweepEntries _ _ _ _ _ [] (text_ne_empty_of_requirePath hleads.short) hwf huntangled hleads
      (t.entries l) (fun _ he => he) (hwf.nodup_entries l) nofun
  unfold housekeep
  rw [run_perform_bind, hlist, list_snd]
  dsimp only
  rw [FileProgram.run_bind, hrun]
  rfl

theorem mem_listedNames (hwf : t.WellFormed) (h : IsVersion t l name) :
    name ∈ listedNames t l := by
  obtain ⟨accessed, hfind⟩ := h.directory
  exact List.mem_map.2 ⟨⟨name, true⟩, hwf.mem_entries_iff.2 ⟨_, hfind, rfl⟩, rfl⟩

theorem IsIdleVersion.listable (hwf : t.WellFormed) (h : IsIdleVersion t agents now name) :
    ∃ passed l, t.Leads agents passed l ∧ t.IsDirectoryAt l := by
  obtain ⟨_, l, hleads, ⟨⟨_, hfind⟩, -⟩, _, _, ⟨_, _, hexecutable, -, -⟩, -⟩ := h
  have hagents := text_ne_empty_of_requirePath hleads.short
  have hname : IsName name := hwf.named _ (mem_of_find? (by simp) hfind) name (by simp)
  obtain ⟨m, hentered⟩ := entered_of_leads hagents hname hexecutable
  obtain ⟨passed, hleads⟩ := hentered.leads
  exact ⟨passed, m, hleads, hentered.directory⟩

/-- What a sweep of the agents directory has done. -/
structure Swept (t : FileTree) (agents : Path) (now : Timestamp) (removed : List Path)
    (t' : FileTree) (l : Location) (names : List String) : Prop where
  leads : names ≠ [] → ∃ passed, t.Leads agents passed l
  nodup : names.Nodup
  exact : ∀ name, name ∈ names ↔ IsIdleVersion t agents now name
  removed : removed = names.map agents.join
  cleared : t' = t.clearAll (places l names)
  /-- Whatever is not in the directory of a removed version is as it was. -/
  kept : ∀ k, (∀ name ∈ names, ¬ l ++ [name] <+: k) → t'.find? k = t.find? k

variable {removed : List Path} {t' : FileTree} {earlier later : Timestamp}

theorem run_housekeep_of_error {cause : IoError}
    (h : ((FileCall.list agents).perform.outcome t).1 = .error cause) :
    (housekeep agents now).run t =
      (if cause.kind = .notFound then .ok [] else .error (.io cause), t) := by
  unfold housekeep
  rw [run_perform_bind, h, list_snd]
  dsimp only
  split <;> rfl

/-- A sweep that succeeds has listed the agents directory or has found that there is none. -/
theorem housekeep_cases (h : (housekeep agents now).run t = (.ok removed, t')) :
    (∃ passed l, t.Leads agents passed l ∧ t.IsDirectoryAt l) ∨
      (¬ ∃ passed l, t.Leads agents passed l ∧ t.IsDirectoryAt l) ∧
        ∀ now, (housekeep agents now).run t = (.ok [], t) := by
  rcases hlist : ((FileCall.list agents).perform.outcome t).1 with cause | listed
  · right
    constructor
    · rintro ⟨passed, l, hleads, hdirectory⟩
      exact nomatch hlist.symm.trans (list_ok_iff.2 ⟨passed, l, hleads, hdirectory, rfl⟩)
    · intro now'
      rw [run_housekeep_of_error hlist] at h ⊢
      split at h
      next hkind => rw [if_pos hkind]
      · cases h
  · obtain ⟨passed, l, hleads, hdirectory, -⟩ := list_ok_iff.1 hlist
    exact .inl ⟨passed, l, hleads, hdirectory⟩

theorem swept_of_leads (hwf : t.WellFormed) (hleads : t.Leads agents passed l) :
    Swept t agents now ((idleVersions t agents l now (listedNames t l)).map agents.join)
      (t.clearAll (places l (idleVersions t agents l now (listedNames t l)))) l
      (idleVersions t agents l now (listedNames t l)) where
  leads _ := ⟨passed, hleads⟩
  nodup := (hwf.nodup_entries l).filter _
  exact name := by
    rw [mem_idleVersions_iff]
    constructor
    · rintro ⟨-, hversion, hunused⟩
      exact ⟨passed, l, hleads, hversion, hunused⟩
    · rintro ⟨passed', l', hleads', hversion, hunused⟩
      obtain ⟨-, rfl⟩ := hleads.unique hleads'
      exact ⟨mem_listedNames hwf hversion, hversion, hunused⟩
  removed := rfl
  cleared := rfl
  kept _ h := find?_clearAll_of_avoids (avoids_places_iff.2 h)

/-- Once the idle versions are gone, a sweep that is made at the same time, or as of an earlier one,
finds nothing to do. -/
theorem run_housekeep_again (hwf : t.WellFormed) (hleads : t.Leads agents passed l)
    (hdirectory : t.IsDirectoryAt l) (hearlier : earlier.nanoseconds ≤ now.nanoseconds) :
    (housekeep agents earlier).run
        (t.clearAll (places l (idleVersions t agents l now (listedNames t l)))) =
      (.ok [], t.clearAll (places l (idleVersions t agents l now (listedNames t l)))) := by
  generalize hnames : idleVersions t agents l now (listedNames t l) = names
  have hroot := root_notMem_places l names
  rcases list_clearAll hroot hleads hdirectory with hlist | hlist
  · rw [run_housekeep_of_error hlist]
    rfl
  · have hused : ∀ e ∈ (t.clearAll (places l names)).entries l,
        e.name ≠ Version.current.text → e.isDirectory = true →
          ¬ IsUnused (t.clearAll (places l names)) agents earlier e.name := by
      intro e he hcurrent hisDirectory hunused
      obtain ⟨node, hfind, hnode⟩ := (hwf.clearAll _).mem_entries_iff.1 he
      have hversion : IsVersion t l e.name := by
        refine ⟨?_, hcurrent⟩
        cases node with
        | directory accessed => exact ⟨accessed, find?_of_clearAll hroot hfind⟩
        | file | link => exact nomatch hisDirectory.symm.trans hnode
      have hmem : e.name ∈ names := by
        rw [← hnames, mem_idleVersions_iff]
        exact ⟨mem_listedNames hwf hversion, hversion,
          (hunused.of_clearAll hroot).mono hearlier⟩
      rw [find?_clearAll hroot, if_pos ⟨_, List.mem_map_of_mem hmem, List.prefix_rfl⟩] at hfind
      cases hfind
    unfold housekeep
    rw [run_perform_bind, hlist, list_snd]
    dsimp only
    have hrun := run_sweepEntries_of_used hused
    rw [FileProgram.run_bind, hrun]
    rfl

/-- In a tree in which the way to the executable of a version never leads through another version, a
sweep that succeeds has removed exactly the idle versions, each with all that was below it, and has
changed nothing else. So a second one, made at the same time or as of an earlier one, changes
nothing, and one made as of a later time would have removed these versions too. -/
theorem housekeep_exact (hwf : t.WellFormed) (huntangled : Untangled t agents)
    (h : (housekeep agents now).run t = (.ok removed, t')) :
    (∃ l names, Swept t agents now removed t' l names) ∧
    (∀ earlier, earlier.nanoseconds ≤ now.nanoseconds →
      (housekeep agents earlier).run t' = (.ok [], t')) ∧
    ∀ later, now.nanoseconds ≤ later.nanoseconds →
      ∃ more t'', (housekeep agents later).run t = (.ok more, t'') ∧ removed ⊆ more := by
  rcases housekeep_cases h with ⟨passed, l, hleads, hdirectory⟩ | ⟨hnone, hrun⟩
  · have hrun := @run_housekeep _ _ now _ _ hwf huntangled hleads hdirectory
    cases h.symm.trans hrun
    refine ⟨⟨l, _, swept_of_leads hwf hleads⟩,
      fun earlier => run_housekeep_again hwf hleads hdirectory, fun later hlater => ?_⟩
    refine ⟨_, _, run_housekeep hwf huntangled hleads hdirectory, List.map_subset _ ?_⟩
    intro name hname
    rw [mem_idleVersions_iff] at hname ⊢
    exact ⟨hname.1, hname.2.1, hname.2.2.mono hlater⟩
  · cases h.symm.trans (hrun now)
    refine ⟨⟨[], [], ⟨nofun, .nil, fun name => ⟨nofun, fun hidle => ?_⟩, rfl, rfl,
      fun _ _ => rfl⟩⟩,
      fun earlier _ => hrun earlier, fun later _ => ⟨_, _, hrun later, List.Subset.refl _⟩⟩
    exact absurd (hidle.listable hwf) hnone

end Sweeping

section Attic

/-- Two installed versions, of which the first has been idle for a nanosecond too long, the running
version, which has been idle for as long, a link, and a file. -/
def attic : FileTree where
  nodes := [
    (["agents"], .directory ⟨0⟩),
    (["agents", "0.0.1"], .directory ⟨0⟩),
    (["agents", "0.0.1", "tether-agent"], .file [1] 493 ⟨0⟩),
    (["agents", "0.0.2"], .directory ⟨0⟩),
    (["agents", "0.0.2", "tether-agent"], .file [2] 493 ⟨1⟩),
    (["agents", "0.1.0"], .directory ⟨0⟩),
    (["agents", "0.1.0", "tether-agent"], .file [3] 493 ⟨0⟩),
    (["agents", "latest"], .link ⟨"0.0.1"⟩),
    (["agents", "notes.txt"], .file [4] 420 ⟨0⟩)]
  mounts := []
  now := ⟨2592000000000001⟩

theorem attic_wellFormed : attic.WellFormed :=
  ⟨by decide, by decide⟩

theorem attic_leads : attic.Leads ⟨"agents"⟩ [["agents"]] ["agents"] :=
  ⟨by decide, rfl, .enter ⟨_, rfl⟩ rfl rfl nofun .arrived⟩

theorem attic_executable (h : name = "0.0.1" ∨ name = "0.0.2") :
    attic.Leads (executablePath ⟨"agents"⟩ name)
      [["agents"], ["agents", name], ["agents", name, "tether-agent"]]
      ["agents", name, "tether-agent"] := by
  rcases h with rfl | rfl
  · exact ⟨by decide, rfl, .enter ⟨_, rfl⟩ rfl rfl nofun
      (.enter ⟨_, rfl⟩ rfl rfl nofun (.enter ⟨_, rfl⟩ rfl rfl nofun .arrived))⟩
  · exact ⟨by decide, rfl, .enter ⟨_, rfl⟩ rfl rfl nofun
      (.enter ⟨_, rfl⟩ rfl rfl nofun (.enter ⟨_, rfl⟩ rfl rfl nofun .arrived))⟩

theorem attic_version (h : IsVersion attic ["agents"] name) : name = "0.0.1" ∨ name = "0.0.2" := by
  obtain ⟨⟨accessed, hfind⟩, hcurrent⟩ := h
  have hdirectories : name = "0.0.1" ∧ accessed = ⟨0⟩ ∨ name = "0.0.2" ∧ accessed = ⟨0⟩ ∨
      name = "0.1.0" ∧ accessed = ⟨0⟩ := by
    simpa [attic] using mem_of_find? (by simp) hfind
  rcases hdirectories with ⟨rfl, -⟩ | ⟨rfl, -⟩ | ⟨rfl, -⟩
  · exact .inl rfl
  · exact .inr rfl
  · exact absurd rfl hcurrent

theorem attic_untangled : Untangled attic ⟨"agents"⟩ := by
  intro passed l name other through m hleads hname hother hne hexecutable k hk hbelow
  obtain ⟨-, rfl⟩ := hleads.way.unique attic_leads.way
  obtain ⟨rfl, -⟩ := hexecutable.way.unique (attic_executable (attic_version hname)).way
  simp only [List.mem_cons, List.not_mem_nil, or_false] at hk
  rcases hk with rfl | rfl | rfl
  · simp at hbelow
  · exact hne (Eq.symm (by simpa using hbelow))
  · exact hne (Eq.symm (by simpa using hbelow))

theorem housekeep_exact_attic :
    ∃ removed t', (housekeep ⟨"agents"⟩ attic.now).run attic = (.ok removed, t') ∧
      IsIdleVersion attic ⟨"agents"⟩ attic.now "0.0.1" ∧
      (∃ l names, Swept attic ⟨"agents"⟩ attic.now removed t' l names) ∧
      (∀ earlier, earlier.nanoseconds ≤ attic.now.nanoseconds →
        (housekeep ⟨"agents"⟩ earlier).run t' = (.ok [], t')) ∧
      ∀ later, attic.now.nanoseconds ≤ later.nanoseconds →
        ∃ more t'', (housekeep ⟨"agents"⟩ later).run attic = (.ok more, t'') ∧ removed ⊆ more := by
  have hrun := @run_housekeep _ _ attic.now _ _ attic_wellFormed attic_untangled attic_leads
    ⟨_, rfl⟩
  have hidle : IsIdleVersion attic ⟨"agents"⟩ attic.now "0.0.1" :=
    ⟨_, _, attic_leads, ⟨⟨_, rfl⟩, nofun⟩, _, _,
      ⟨_, _, attic_executable (.inl rfl), rfl, rfl⟩, by decide⟩
  exact ⟨_, _, hrun, hidle, housekeep_exact attic_wellFormed attic_untangled hrun⟩

end Attic

end RemoteAgent.Agent
