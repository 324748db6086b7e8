import Mathlib.Logic.Relation
import RemoteAgent.Proofs.Agent.Housekeeping
import RemoteAgent.Proofs.Agent.Relocation
import RemoteAgent.Proofs.FileTree.Moving

/-! # A sweep and an installation at once

One agent keeps house while another one, of another version, is installed beneath the same agents
directory. Their calls are carried out in turns, in any order. What the sweep learns about a version
may be out of date when it removes the version. Only this, or a directory of a version that is
reached through another version, can take an executable away that has been installed.
-/

namespace RemoteAgent.Agent

open FileTree RemoteAgent.Path Relation

/-- What is left to do of a sweep and of an installation, and the tree that they work on. -/
structure Race where
  sweep : FileProgram (Except AgentError (List Path))
  installation : FileProgram (Except AgentError Unit)
  tree : FileTree

variable {t : FileTree} {agents : Path} {now : Timestamp} {version name : String}

namespace Race

/-- Either one carries out its next call. -/
inductive Step : Race → Race → Prop where

  | sweep {c : FileCall}
      {next : Except IoError c.Answer → FileProgram (Except AgentError (List Path))}
      {installation : FileProgram (Except AgentError Unit)} {t : FileTree} :
      Step ⟨.call c next, installation, t⟩
        ⟨next (c.perform.outcome t).1, installation, (c.perform.outcome t).2⟩

  | install {sweep : FileProgram (Except AgentError (List Path))} {c : FileCall}
      {next : Except IoError c.Answer → FileProgram (Except AgentError Unit)} {t : FileTree} :
      Step ⟨sweep, .call c next, t⟩
        ⟨sweep, next (c.perform.outcome t).1, (c.perform.outcome t).2⟩

def start (agents : Path) (now : Timestamp) (source : Path) (version : String) (t : FileTree) :
    Race where
  sweep := housekeep agents now
  installation := relocate source (executablePath agents version)
  tree := t

end Race

section Sweeps

variable (agents now version) in
/-- What a sweep may still do. It removes a version only right after it has found its executable
idle; the flag tells whether it is about to do so with one version in particular. -/
inductive Sweeping {α : Type} : Bool → FileProgram α → Prop where

  | done {result : α} : Sweeping false (.done result)

  | listing {next : Except IoError (FileCall.list agents).Answer → FileProgram α} :
      (∀ cause, Sweeping false (next (.error cause))) →
      (∀ listed : List Entry, agents.text ≠ "" → (∀ e ∈ listed, IsName e.name) →
        Sweeping false (next (.ok listed))) →
      Sweeping false (.call (.list agents) next)

  | looking {name : String}
      {next : Except IoError (FileCall.accessTime (executablePath agents name)).Answer →
        FileProgram α} :
      agents.text ≠ "" → IsName name → name ≠ Version.current.text →
      (∀ cause, Sweeping false (next (.error cause))) →
      (∀ accessed : Timestamp,
        Sweeping (decide (name = version) && isIdle now accessed) (next (.ok accessed))) →
      Sweeping false (.call (.accessTime (executablePath agents name)) next)

  | removing {name : String}
      {next : Except IoError (FileCall.removeTree (agents.join name)).Answer → FileProgram α} :
      agents.text ≠ "" → IsName name → name ≠ Version.current.text →
      (∀ outcome, Sweeping false (next outcome)) →
      Sweeping (decide (name = version)) (.call (.removeTree (agents.join name)) next)

variable {α β : Type} {doomed : Bool}

theorem Sweeping.bind {p : FileProgram α} {f : α → FileProgram β}
    (h : Sweeping agents now version doomed p) (hf : ∀ a, Sweeping agents now version false (f a)) :
    Sweeping agents now version doomed (p >>= f) := by
  induction h with
  | done => exact hf _
  | listing _ _ ihcause ihlisted => exact .listing ihcause ihlisted
  | looking ha hname hcurrent _ _ ihcause ihaccessed =>
    exact .looking ha hname hcurrent ihcause ihaccessed
  | removing ha hname hcurrent _ ih => exact .removing ha hname hcurrent ih

theorem sweeping_sweepEntry (hagents : agents.text ≠ "") {e : Entry} (hname : IsName e.name) :
    Sweeping agents now version false (sweepEntry agents now e) := by
  unfold sweepEntry
  split
  · exact .done
  next hcandidate =>
    have hcurrent : e.name ≠ Version.current.text := fun h => hcandidate (by simp [h])
    refine .looking hagents hname hcurrent (fun _ => .done) fun accessed => ?_
    change Sweeping agents now version _
      (if !isIdle now accessed then Pure.pure none
        else FileProgram.perform (.removeTree (agents.join e.name)) >>= _)
    cases isIdle now accessed with
    | false =>
      rw [Bool.and_false]
      exact .done
    | true =>
      rw [Bool.and_true]
      refine .removing hagents hname hcurrent fun outcome => ?_
      cases outcome <;> exact .done

theorem sweeping_sweepEntries (hagents : agents.text ≠ "") {entries : List Entry}
    (hnames : ∀ e ∈ entries, IsName e.name) :
    Sweeping agents now version false (sweepEntries agents now entries) := by
  induction entries with
  | nil => exact .done
  | cons e entries ih =>
    obtain ⟨he, hentries⟩ := List.forall_mem_cons.1 hnames
    exact (sweeping_sweepEntry hagents he).bind fun _ => (ih hentries).bind fun _ => .done

theorem sweeping_housekeep : Sweeping agents now version false (housekeep agents now) := by
  refine .listing (fun cause => ?_) fun listed hagents hnames => ?_
  · dsimp only [FileProgram.bind]
    split <;> exact .done
  · exact (sweeping_sweepEntries hagents hnames).bind fun _ => .done

theorem names_of_list (hnamed : t.Named) {listed : List Entry}
    (h : ((FileCall.list agents).perform.outcome t).1 = .ok listed) :
    agents.text ≠ "" ∧ ∀ e ∈ listed, IsName e.name := by
  obtain ⟨_, l, hleads, -, rfl⟩ := list_ok_iff.1 h
  exact ⟨text_ne_empty_of_requirePath hleads.short, fun e he => hnamed.isName_of_mem_entries he⟩

/-- Only when a sweep is about to remove the version, its next call does so. -/
theorem Sweeping.eq_call {p : FileProgram α} (h : Sweeping agents now version true p) :
    ∃ next, p = .call (.removeTree (agents.join version)) next := by
  generalize hdoomed : true = doomed at h
  cases h with
  | removing =>
    obtain rfl := of_decide_eq_true hdoomed.symm
    exact ⟨_, rfl⟩
  | done | listing | looking => cases hdoomed

/-- Whatever a call of a sweep gives, the sweep goes on as one. -/
theorem Sweeping.step {c : FileCall} {next : Except IoError c.Answer → FileProgram α}
    (h : Sweeping agents now version doomed (.call c next)) (hnamed : t.Named) :
    ∃ doomed, Sweeping agents now version doomed (next (c.perform.outcome t).1) := by
  cases h with
  | listing hcause hlisted =>
    rcases houtcome : ((FileCall.list agents).perform.outcome t).1 with cause | listed
    · exact ⟨_, hcause cause⟩
    · obtain ⟨hagents, hnames⟩ := names_of_list hnamed houtcome
      exact ⟨_, hlisted _ hagents hnames⟩
  | looking _ _ _ hcause haccessed =>
    rcases ((FileCall.accessTime (executablePath agents _)).perform.outcome t).1
      with cause | accessed
    · exact ⟨_, hcause cause⟩
    · exact ⟨_, haccessed accessed⟩
  | removing _ _ _ hnext => exact ⟨_, hnext _⟩

end Sweeps

section Installing

variable {r r' : Race}

/-- Whatever an installation does, its calls put nothing under what is no name. -/
theorem Race.Step.sweeping (h : r.Step r') (hnamed : r.tree.Named)
    (hsweep : ∃ doomed, Sweeping agents now version doomed r.sweep) :
    r'.tree.Named ∧ ∃ doomed, Sweeping agents now version doomed r'.sweep := by
  cases h with
  | @sweep c =>
    obtain ⟨doomed, hsweep⟩ := hsweep
    exact ⟨named_perform hnamed c, hsweep.step hnamed⟩
  | @install _ c => exact ⟨named_perform hnamed c, hsweep⟩

theorem sweeping_of_reaches {source : Path} (hnamed : t.Named)
    (h : ReflTransGen Race.Step (Race.start agents now source version t) r) :
    r.tree.Named ∧ ∃ doomed, Sweeping agents now version doomed r.sweep := by
  induction h with
  | refl => exact ⟨hnamed, false, sweeping_housekeep⟩
  | tail _ hstep ih => exact hstep.sweeping ih.1 ih.2

variable (agents version) in
/-- This stands where the executable of a version is looked for, and the way there leads through no
other entry of the agents directory, unless it is that of the running version. -/
structure Stands (t : FileTree) (passed : List Location) (m : Location) (node : Node) : Prop where
  leads : t.Leads (executablePath agents version) passed m
  found : t.find? m = some node
  apart : ∀ {through l other}, t.Leads agents through l → other ≠ version →
    other ≠ Version.current.text → ∀ k ∈ passed, ¬ l ++ [other] <+: k

variable {passed : List Location} {m : Location} {node : Node}

/-- What stands there is left when another entry of the agents directory is removed. -/
theorem Stands.removeTree (h : Stands agents version t passed m node) (hagents : agents.text ≠ "")
    (hversion : IsName version) (hname : IsName name) (hother : name ≠ version)
    (hcurrent : name ≠ Version.current.text) :
    Stands agents version ((FileCall.removeTree (agents.join name)).perform.outcome t).2
      passed m node := by
  rcases removeTree_cases (agents.join name) t with hsame | ⟨k, hslot, hclear⟩
  · rwa [hsame]
  · obtain ⟨a, hentered⟩ := entered_of_leads hagents hversion h.leads
    obtain ⟨through, hleads⟩ := hentered.leads
    obtain ⟨-, _, l, hway, -, -, heq⟩ := (slot?_join hagents hname).1 hslot
    obtain ⟨_, hcomponents⟩ := hleads.components
    obtain ⟨-, rfl⟩ := hway.unique hcomponents
    cases heq
    rw [hclear]
    change Stands agents version (t.clearAll [l ++ [name]]) passed m node
    have hroot : [] ∉ [l ++ [name]] := by simp
    obtain ⟨hleft, hm⟩ := h.leads.clearAll hroot fun k hk =>
      ⟨hroot, List.forall_mem_singleton.2 (h.apart hleads hother hcurrent k hk)⟩
    exact ⟨hleft, hm.trans h.found, fun hl => h.apart (hl.of_clearAll hroot)⟩

/-- While a sweep goes on that is not about to remove the version, what stands in its place stays
there, provided that it has been used lately. -/
theorem Stands.sweep {α : Type} {c : FileCall} {next : Except IoError c.Answer → FileProgram α}
    (h : Stands agents version t passed m node) (hversion : IsName version)
    (hfresh : ∀ accessed, node.accessed? = some accessed → isIdle now accessed = false)
    (hsweep : Sweeping agents now version false (.call c next)) (hnamed : t.Named) :
    Stands agents version (c.perform.outcome t).2 passed m node ∧
      Sweeping agents now version false (next (c.perform.outcome t).1) := by
  generalize hdoomed : false = doomed at hsweep
  cases hsweep with
  | listing hcause hlisted =>
    rw [list_snd]
    refine ⟨h, ?_⟩
    rcases houtcome : ((FileCall.list agents).perform.outcome t).1 with cause | listed
    · exact hcause cause
    · obtain ⟨hagents, hnames⟩ := names_of_list hnamed houtcome
      exact hlisted _ hagents hnames
  | @looking name _ hagents hname _ hcause haccessed =>
    rw [accessTime_snd]
    refine ⟨h, ?_⟩
    rcases houtcome : ((FileCall.accessTime (executablePath agents name)).perform.outcome t).1
      with cause | accessed
    · exact hcause cause
    · have hindex : (decide (name = version) && isIdle now accessed) = false := by
        rw [Bool.and_eq_false_imp]
        intro heq
        obtain rfl := of_decide_eq_true heq
        obtain ⟨_, l, node', hleads, hfind, htime⟩ := accessTime_ok_iff.1 houtcome
        obtain ⟨-, rfl⟩ := hleads.unique h.leads
        cases hfind.symm.trans h.found
        exact hfresh accessed htime
      exact hindex ▸ haccessed accessed
  | @removing name _ hagents hname hcurrent hnext =>
    refine ⟨h.removeTree hagents hversion hname (of_decide_eq_false hdoomed.symm) hcurrent, ?_⟩
    rw [← hdoomed]
    exact hnext _

/-- When an installation has finished, a sweep takes no executable away that has been used lately,
unless it was about to. -/
theorem Stands.of_reaches (h : Stands agents version r.tree passed m node)
    (hversion : IsName version)
    (hfresh : ∀ accessed, node.accessed? = some accessed → isIdle now accessed = false)
    (hsweep : Sweeping agents now version false r.sweep) (hnamed : r.tree.Named)
    {result : Except AgentError Unit} (hinstalled : r.installation = .done result)
    (hreach : ReflTransGen Race.Step r r') : Stands agents version r'.tree passed m node := by
  induction hreach using ReflTransGen.head_induction_on with
  | refl => exact h
  | head hstep _ ih =>
    cases hstep with
    | @sweep c =>
      obtain ⟨h, hsweep⟩ := h.sweep hversion hfresh hsweep hnamed
      exact ih h hsweep (named_perform hnamed c) hinstalled
    | install => cases hinstalled

/-- Let a version be installed while a sweep goes on, in any order of their calls, and let its
executable have been used lately and stand where it is looked for when the installation is over. It
still stands there, the same, when the sweep is over too, unless the sweep was just about to remove
the version when the installation was over. If the executable has been moved there, it is the one
that was uploaded. -/
theorem installation_kept {source : Path} {sweep : FileProgram (Except AgentError (List Path))}
    {result : Except AgentError (List Path)} {installed : FileProgram (Except AgentError Unit)}
    {t₁ t₂ : FileTree} {content : List UInt8} {mode : Nat} {accessed : Timestamp}
    (hversion : IsName version) (hnamed : t.Named)
    (hbefore : ReflTransGen Race.Step (.start agents now source version t)
      ⟨sweep, .done (.ok ()), t₁⟩)
    (hjudged : ∀ next, sweep ≠ .call (.removeTree (agents.join version)) next)
    (hstands : Stands agents version t₁ passed m (.file content mode accessed))
    (hfresh : now.nanoseconds ≤ accessed.nanoseconds + maximumIdle.nanoseconds)
    (hafter : ReflTransGen Race.Step ⟨sweep, .done (.ok ()), t₁⟩ ⟨.done result, installed, t₂⟩) :
    Stands agents version t₂ passed m (.file content mode accessed) ∧
      ∀ {s uploaded bytes bits time},
        (FileCall.rename source (executablePath agents version)).perform.outcome s = (.ok (), t₁) →
        s.slot? source = .ok (some uploaded) → s.find? uploaded = some (.file bytes bits time) →
        t₂.find? m = some (.file bytes bits time) := by
  obtain ⟨hnamed₁, doomed, hsweep⟩ := sweeping_of_reaches hnamed hbefore
  have hnotIdle : ∀ time, (Node.file content mode accessed).accessed? = some time →
      isIdle now time = false := by
    rintro _ ⟨⟩
    rw [Bool.eq_false_iff]
    exact fun hidle => Int.not_lt.2 hfresh (isIdle_iff.1 hidle)
  cases doomed with
  | true =>
    obtain ⟨next, rfl⟩ := hsweep.eq_call
    exact absurd rfl (hjudged next)
  | false =>
    have hkept := hstands.of_reaches hversion hnotIdle hsweep hnamed₁ rfl hafter
    refine ⟨hkept, fun hrename hsource hfile => ?_⟩
    have hmoved := find?_of_rename (rename_of_perform hrename) hsource hfile hstands.leads
    rw [hkept.found, ← hmoved, hstands.found]

end Installing

section Losing

variable {t' t'' : FileTree} {passed : List Location}

theorem Race.Step.sweep_of {c : FileCall}
    {next : Except IoError c.Answer → FileProgram (Except AgentError (List Path))}
    {installation : FileProgram (Except AgentError Unit)} {answer : Except IoError c.Answer}
    (h : c.perform.outcome t = (answer, t')) :
    Race.Step ⟨.call c next, installation, t⟩ ⟨next answer, installation, t'⟩ := by
  have hstep : Race.Step ⟨.call c next, installation, t⟩ _ := .sweep
  rwa [h] at hstep

/-- A sweep may run to its end while the installation waits. -/
theorem Race.run_sweep (p : FileProgram (Except AgentError (List Path)))
    (installation : FileProgram (Except AgentError Unit)) (t : FileTree) :
    ReflTransGen Race.Step ⟨p, installation, t⟩ ⟨.done (p.run t).1, installation, (p.run t).2⟩ := by
  induction p generalizing t with
  | done => exact .refl
  | call c next ih => exact .head .sweep (ih _ _)

/-- An installation may run to its end while the sweep waits. -/
theorem Race.run_installation (sweep : FileProgram (Except AgentError (List Path)))
    (p : FileProgram (Except AgentError Unit)) (t : FileTree) :
    ReflTransGen Race.Step ⟨sweep, p, t⟩ ⟨sweep, .done (p.run t).1, (p.run t).2⟩ := by
  induction p generalizing t with
  | done => exact .refl
  | call c next ih => exact .head .install (ih _ _)

theorem run_relocate {source destination parent : Path}
    (hparent : destination.parent? = some parent)
    (hmake : (FileCall.makeDirectories parent).perform.outcome t = (.ok (), t'))
    (hrename : (FileCall.rename source destination).perform.outcome t' = (.ok (), t'')) :
    (relocate source destination).run t = (.ok (), t'') :=
  run_relocate_of_ok (run_makeParent hparent hmake) hrename

/-- A version that has been idle for a nanosecond too long, another one whose directory is in that
of the first, and an upload. -/
def loft : FileTree where
  nodes := [
    (["agents"], .directory ⟨0⟩),
    (["agents", "0.0.1"], .directory ⟨0⟩),
    (["agents", "0.0.1", "tether-agent"], .file [1] 493 ⟨0⟩),
    (["agents", "0.0.1", "next"], .directory ⟨0⟩),
    (["agents", "0.2.0"], .link ⟨"0.0.1/next"⟩),
    (["inbox"], .directory ⟨0⟩),
    (["inbox", "upload"], .file [2] 493 ⟨2592000000000001⟩)]
  mounts := []
  now := ⟨2592000000000001⟩

/-- The upload has been moved. -/
def loftWith (target : Location) : FileTree :=
  loft.move ["inbox", "upload"] target

theorem loft_slot : loft.slot? ⟨"inbox/upload"⟩ = .ok (some ["inbox", "upload"]) :=
  (@slot?_join _ ⟨"inbox"⟩ "upload" (by decide) (by decide) _).2
    ⟨rfl, _, _, .enter ⟨_, rfl⟩ rfl rfl nofun .arrived, ⟨_, rfl⟩, rfl, rfl⟩

theorem loft_list : (FileCall.list ⟨"agents"⟩).perform.outcome loft =
    (.ok [⟨"0.0.1", true⟩, ⟨"0.2.0", false⟩], loft) :=
  Prod.ext (list_ok_iff.2 ⟨_, ["agents"],
    ⟨by decide, rfl, .enter ⟨_, rfl⟩ rfl rfl nofun .arrived⟩, ⟨_, rfl⟩, rfl⟩) (list_snd _ _)

theorem accessTime_idle (h : t = loft ∨ t = loftWith ["agents", "0.0.1", "next", "tether-agent"]) :
    (FileCall.accessTime (executablePath ⟨"agents"⟩ "0.0.1")).perform.outcome t =
      (.ok (⟨0⟩ : Timestamp), t) := by
  refine Prod.ext (accessTime_ok_iff.2 ?_) (accessTime_snd _ _)
  rcases h with rfl | rfl <;>
    exact ⟨_, _, _, ⟨by decide, rfl, .enter ⟨_, rfl⟩ rfl rfl nofun
      (.enter ⟨_, rfl⟩ rfl rfl nofun (.enter ⟨_, rfl⟩ rfl rfl nofun .arrived))⟩, rfl, rfl⟩

/-- What is left of a sweep that has listed the agents directory. -/
def loftSweep : FileProgram (Except AgentError (List Path)) := do
  return .ok (← sweepEntries ⟨"agents"⟩ loft.now [⟨"0.0.1", true⟩, ⟨"0.2.0", false⟩])

theorem loft_listed (version : String) :
    Race.Step (.start ⟨"agents"⟩ loft.now ⟨"inbox/upload"⟩ version loft)
      ⟨loftSweep, relocate ⟨"inbox/upload"⟩ (executablePath ⟨"agents"⟩ version), loft⟩ :=
  .sweep_of loft_list

/-- Once it has found the version idle, the sweep removes it next, and is over then. -/
theorem loftSweep_judged : ∃ next,
    (∀ t, (next (.ok ())).run t = (.ok [Path.join ⟨"agents"⟩ "0.0.1"], t)) ∧
    ∀ {t installation}, t = loft ∨ t = loftWith ["agents", "0.0.1", "next", "tether-agent"] →
      Race.Step ⟨loftSweep, installation, t⟩
        ⟨.call (.removeTree (Path.join ⟨"agents"⟩ "0.0.1")) next, installation, t⟩ :=
  ⟨_, fun _ => rfl, fun h => .sweep_of (accessTime_idle h)⟩

/-- The directory of a version. -/
def IsLoftVersion (version : String) (directory : Location) : Prop :=
  version = "0.0.1" ∧ directory = ["agents", "0.0.1"] ∨
    version = "0.2.0" ∧ directory = ["agents", "0.0.1", "next"]

theorem loft_rename {directory : Location} (hversion : IsLoftVersion version directory)
    (hleads : loft.Leads (Path.join ⟨"agents"⟩ version) passed directory) :
    (FileCall.rename ⟨"inbox/upload"⟩ (executablePath ⟨"agents"⟩ version)).perform.outcome loft =
      (.ok (), loftWith (directory ++ ["tether-agent"])) := by
  obtain ⟨_, hway⟩ := hleads.components
  have hdestination : loft.slot? (executablePath ⟨"agents"⟩ version) =
      .ok (some (directory ++ ["tether-agent"])) := by
    rcases hversion with ⟨rfl, rfl⟩ | ⟨rfl, rfl⟩ <;>
      exact (slot?_join (by decide) (by decide)).2 ⟨rfl, _, _, hway, ⟨_, rfl⟩, rfl, rfl⟩
  rcases hversion with ⟨rfl, rfl⟩ | ⟨rfl, rfl⟩
  all_goals
    rw [outcome_perform_rename, if_neg (by decide), outcome_rename loft_slot hdestination rfl rfl
      (by decide) (by decide) (by decide) (by decide) rfl (by rintro _ ⟨⟩ <;> rfl)]
    rfl

theorem loft_relocate {directory : Location} (hversion : IsLoftVersion version directory)
    (hleads : loft.Leads (Path.join ⟨"agents"⟩ version) passed directory) :
    (relocate ⟨"inbox/upload"⟩ (executablePath ⟨"agents"⟩ version)).run loft =
      (.ok (), loftWith (directory ++ ["tether-agent"])) := by
  have hrename := loft_rename hversion hleads
  have hslot : loft.slot? (Path.join ⟨"agents"⟩ version) = .ok (some ["agents", version]) := by
    rcases hversion with ⟨rfl, -⟩ | ⟨rfl, -⟩ <;>
      exact (slot?_join (by decide) (by decide)).2
        ⟨rfl, _, _, .enter ⟨_, rfl⟩ rfl rfl nofun .arrived, ⟨_, rfl⟩, rfl, rfl⟩
  have hdirectory : loft.isDirectory (Path.join ⟨"agents"⟩ version) = true := by
    have hnode : loft.node (Path.join ⟨"agents"⟩ version) = .ok (.directory ⟨0⟩) :=
      node_ok_iff.2 ⟨directory, locate_ok_iff.2 ⟨hleads.short, _, hleads.way⟩, by
        rcases hversion with ⟨-, rfl⟩ | ⟨-, rfl⟩ <;> rfl⟩
    rw [FileTree.isDirectory, hnode]
    rfl
  rcases hversion with ⟨rfl, rfl⟩ | ⟨rfl, rfl⟩ <;>
    exact run_relocate (by decide) (outcome_makeDirectories hleads.plain
      (by decide : withAbove _ = _ :: [⟨"agents"⟩]) hslot hdirectory rfl) hrename

theorem loft_leads : loft.Leads (Path.join ⟨"agents"⟩ "0.0.1") [["agents"], ["agents", "0.0.1"]]
    ["agents", "0.0.1"] :=
  ⟨by decide, rfl, .enter ⟨_, rfl⟩ rfl rfl nofun (.enter ⟨_, rfl⟩ rfl rfl nofun .arrived)⟩

theorem loft_relocate_idle :
    (relocate ⟨"inbox/upload"⟩ (executablePath ⟨"agents"⟩ "0.0.1")).run loft =
      (.ok (), loftWith ["agents", "0.0.1", "tether-agent"]) :=
  loft_relocate (.inl ⟨rfl, rfl⟩) loft_leads

theorem loft_relocate_linked :
    (relocate ⟨"inbox/upload"⟩ (executablePath ⟨"agents"⟩ "0.2.0")).run loft =
      (.ok (), loftWith ["agents", "0.0.1", "next", "tether-agent"]) :=
  loft_relocate (.inr ⟨rfl, rfl⟩) ⟨by decide, rfl, .enter ⟨_, rfl⟩ rfl rfl nofun
    (.follow ⟨_, rfl⟩ rfl rfl (.enter ⟨_, rfl⟩ rfl rfl nofun
      (.enter ⟨_, rfl⟩ rfl rfl nofun .arrived)))⟩

theorem loftWith_leads :
    (loftWith ["agents", "0.0.1", "tether-agent"]).Leads (executablePath ⟨"agents"⟩ "0.0.1")
      [["agents"], ["agents", "0.0.1"], ["agents", "0.0.1", "tether-agent"]]
      ["agents", "0.0.1", "tether-agent"] :=
  ⟨by decide, rfl, .enter ⟨_, rfl⟩ rfl rfl nofun
    (.enter ⟨_, rfl⟩ rfl rfl nofun (.enter ⟨_, rfl⟩ rfl rfl nofun .arrived))⟩

theorem loftWith_leads_linked :
    (loftWith ["agents", "0.0.1", "next", "tether-agent"]).Leads
      (executablePath ⟨"agents"⟩ "0.2.0")
      [["agents"], ["agents", "0.2.0"], ["agents", "0.0.1"], ["agents", "0.0.1", "next"],
        ["agents", "0.0.1", "next", "tether-agent"]]
      ["agents", "0.0.1", "next", "tether-agent"] :=
  ⟨by decide, rfl, .enter ⟨_, rfl⟩ rfl rfl nofun (.follow ⟨_, rfl⟩ rfl rfl
    (.enter ⟨_, rfl⟩ rfl rfl nofun (.enter ⟨_, rfl⟩ rfl rfl nofun
      (.enter ⟨_, rfl⟩ rfl rfl nofun .arrived))))⟩

theorem loftWith_stands :
    Stands ⟨"agents"⟩ "0.0.1" (loftWith ["agents", "0.0.1", "tether-agent"])
      [["agents"], ["agents", "0.0.1"], ["agents", "0.0.1", "tether-agent"]]
      ["agents", "0.0.1", "tether-agent"] (.file [2] 493 ⟨2592000000000001⟩) where
  leads := loftWith_leads
  found := rfl
  apart := by
    intro through l other hleads hother _ k hk hbelow
    have hagents : (loftWith ["agents", "0.0.1", "tether-agent"]).Way linkLimit []
        (Path.mk "agents").steps [["agents"]] ["agents"] :=
      .enter ⟨_, rfl⟩ rfl rfl nofun .arrived
    obtain ⟨-, rfl⟩ := hleads.way.unique hagents
    simp only [List.mem_cons, List.not_mem_nil, or_false] at hk
    rcases hk with rfl | rfl | rfl
    · simp at hbelow
    · exact hother (by simpa using hbelow)
    · exact hother (by simpa using hbelow)

theorem installation_kept_loft : ∃ result t,
    ReflTransGen Race.Step (.start ⟨"agents"⟩ loft.now ⟨"inbox/upload"⟩ "0.0.1" loft)
      ⟨.done result, .done (.ok ()), t⟩ ∧
    Stands ⟨"agents"⟩ "0.0.1" t
      [["agents"], ["agents", "0.0.1"], ["agents", "0.0.1", "tether-agent"]]
      ["agents", "0.0.1", "tether-agent"] (.file [2] 493 ⟨2592000000000001⟩) ∧
    t.find? ["agents", "0.0.1", "tether-agent"] = loft.find? ["inbox", "upload"] := by
  have hinstalled := Race.run_installation loftSweep
    (relocate ⟨"inbox/upload"⟩ (executablePath ⟨"agents"⟩ "0.0.1")) loft
  rw [loft_relocate_idle] at hinstalled
  have hbefore := hinstalled.head (loft_listed "0.0.1")
  have hafter := Race.run_sweep loftSweep (.done (.ok ()))
    (loftWith ["agents", "0.0.1", "tether-agent"])
  obtain ⟨hkept, huploaded⟩ :=
    installation_kept (by decide) (by decide) hbefore nofun loftWith_stands (by decide) hafter
  exact ⟨_, _, hbefore.trans hafter, hkept,
    huploaded (loft_rename (.inl ⟨rfl, rfl⟩) loft_leads) loft_slot rfl⟩

/-- An installation may succeed and leave an executable that has been used lately, and when the
sweep is over too the executable is not found any more. -/
def IsLost (agents : Path) (now : Timestamp) (source : Path) (version : String) (t : FileTree) :
    Prop :=
  ∃ sweep t₁ passed m content mode accessed removed t₂,
    ReflTransGen Race.Step (.start agents now source version t) ⟨sweep, .done (.ok ()), t₁⟩ ∧
    t₁.Leads (executablePath agents version) passed m ∧
    t₁.find? m = some (.file content mode accessed) ∧
    now.nanoseconds ≤ accessed.nanoseconds + maximumIdle.nanoseconds ∧
    ReflTransGen Race.Step ⟨sweep, .done (.ok ()), t₁⟩
      ⟨.done (.ok removed), .done (.ok ()), t₂⟩ ∧
    ∀ passed m, ¬ t₂.Leads (executablePath agents version) passed m

theorem loftWith_removed {target : Location}
    {next : Except IoError Unit → FileProgram (Except AgentError (List Path))}
    (htarget : target = ["agents", "0.0.1", "tether-agent"] ∨
      target = ["agents", "0.0.1", "next", "tether-agent"])
    (hnext : ∀ t, (next (.ok ())).run t = (.ok [Path.join ⟨"agents"⟩ "0.0.1"], t)) :
    ReflTransGen Race.Step
      ⟨.call (.removeTree (Path.join ⟨"agents"⟩ "0.0.1")) next, .done (.ok ()), loftWith target⟩
      ⟨.done (.ok [Path.join ⟨"agents"⟩ "0.0.1"]), .done (.ok ()),
        (loftWith target).clear ["agents", "0.0.1"]⟩ := by
  have hremoved : (FileCall.removeTree (Path.join ⟨"agents"⟩ "0.0.1")).perform.outcome
      (loftWith target) = (.ok (), (loftWith target).clear ["agents", "0.0.1"]) := by
    rcases htarget with rfl | rfl <;>
      exact outcome_removeTree (by decide) ((slot?_join (by decide) (by decide)).2
        ⟨rfl, _, _, .enter ⟨_, rfl⟩ rfl rfl nofun .arrived, ⟨_, rfl⟩, rfl, rfl⟩)
        (rfl : _ = some (Node.directory ⟨0⟩)) nofun
  have hrest := Race.run_sweep (next (.ok ())) (.done (.ok ()))
    ((loftWith target).clear ["agents", "0.0.1"])
  rw [hnext] at hrest
  exact hrest.head (.sweep_of hremoved)

/-- A version is lost if the sweep has found the executable idle whose place the upload takes, or if
its directory is a link that leads through a version that the sweep removes. -/
theorem installation_lost : IsLost ⟨"agents"⟩ loft.now ⟨"inbox/upload"⟩ "0.0.1" loft ∧
    IsLost ⟨"agents"⟩ loft.now ⟨"inbox/upload"⟩ "0.2.0" loft := by
  obtain ⟨next, hnext, hjudged⟩ := loftSweep_judged
  constructor
  · have hinstalled := Race.run_installation
      (.call (.removeTree (Path.join ⟨"agents"⟩ "0.0.1")) next)
      (relocate ⟨"inbox/upload"⟩ (executablePath ⟨"agents"⟩ "0.0.1")) loft
    rw [loft_relocate_idle] at hinstalled
    have hbefore := (hinstalled.head (hjudged (.inl rfl))).head (loft_listed "0.0.1")
    have hafter := loftWith_removed (.inl rfl) hnext
    exact ⟨_, _, _, _, _, _, _, _, _, hbefore, loftWith_leads, rfl, by decide, hafter, fun _ _ =>
      loftWith_leads.not_clear (List.mem_cons_of_mem _ List.mem_cons_self) nofun List.prefix_rfl⟩
  · have hinstalled := Race.run_installation loftSweep
      (relocate ⟨"inbox/upload"⟩ (executablePath ⟨"agents"⟩ "0.2.0")) loft
    rw [loft_relocate_linked] at hinstalled
    have hbefore := hinstalled.head (loft_listed "0.2.0")
    have hafter := (loftWith_removed (.inr rfl) hnext).head (hjudged (.inr rfl))
    exact ⟨_, _, _, _, _, _, _, _, _, hbefore, loftWith_leads_linked, rfl, by decide, hafter,
      fun _ _ => loftWith_leads_linked.not_clear
        (List.mem_cons_of_mem _ (List.mem_cons_of_mem _ List.mem_cons_self)) nofun List.prefix_rfl⟩

end Losing

end RemoteAgent.Agent
