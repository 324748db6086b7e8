import RemoteAgent.Proofs.FileTree.Moving

/-! # Files that are written over

A path that is written to comes to a location where a file stands or nothing. Nothing but that
location changes, so every other file can be found as before, and the path leads to what has been
written.
-/

namespace RemoteAgent.FileTree

open Effect RemoteAgent.Path

variable {t u v : FileTree} {p : Path} {l k r target : Location} {steps : List Component}
  {links : Nat} {mayBeNew : Bool} {bytes : List UInt8} {mode : Nat}

section Unlinked

/-- Whether nothing is a link that leads down to a location, nor what stands there. -/
def Unlinked (t : FileTree) (l : Location) : Prop :=
  ∀ k, k <+: l → ∀ link, t.find? k ≠ some (.link link)

theorem unlinked_nil (t : FileTree) : t.Unlinked [] := by
  intro k hk link hfind
  rw [List.prefix_nil.1 hk] at hfind
  cases hfind

theorem Unlinked.of_isPrefix (h : t.Unlinked l) (hk : k <+: l) : t.Unlinked k :=
  fun m hm => h m (hm.trans hk)

theorem Unlinked.concat (h : t.Unlinked l) {name : String}
    (hname : ∀ link, t.find? (l ++ [name]) ≠ some (.link link)) : t.Unlinked (l ++ [name]) := by
  intro k hk
  rcases List.prefix_concat_iff.1 hk with rfl | hk
  · exact hname
  · exact h k hk

/-- No walk ends at a link. -/
theorem unlinked_of_walk (h : t.walk mayBeNew links l steps = .ok r) (hl : t.Unlinked l) :
    t.Unlinked r := by
  induction links, l, steps using walk.induct with
  | case1 links l =>
    rw [walk] at h
    cases h
    exact hl
  | case2 links l rest ih =>
    rw [walk] at h
    exact ih h (unlinked_nil t)
  | case3 links l rest ih =>
    rw [walk, bind_eq_ok_iff] at h
    obtain ⟨_, -, h⟩ := h
    exact ih h hl
  | case4 links l rest ih =>
    rw [walk, bind_eq_ok_iff] at h
    obtain ⟨_, -, h⟩ := h
    exact ih h (hl.of_isPrefix (List.dropLast_prefix _))
  | case5 links l cs rest ihfollow ihenter =>
    rw [walk, bind_eq_ok_iff] at h
    obtain ⟨_, -, h⟩ := h
    rw [bind_eq_ok_iff] at h
    obtain ⟨_, -, h⟩ := h
    split at h
    next target hfind =>
      cases links with
      | zero => cases h
      | succ links => exact ihfollow target h hl
    next node hlink hfind =>
      refine ihenter h (hl.concat fun link hfound => ?_)
      exact hlink link (Option.some.inj (hfind.symm.trans hfound))
    next hfind =>
      split at h
      · cases h
        refine hl.concat fun link hfound => ?_
        cases hfind.symm.trans hfound
      · cases h

end Unlinked

section Overwriting

/-- A file that is written to a path comes to a location. -/
structure Receives (t : FileTree) (p : Path) (target : Location) : Prop where
  short : requirePath p = .ok ()
  slash : p.endsInSlash = false
  walk : t.walk true linkLimit [] p.steps = .ok target
  deadEnd : t.DeadEnd target

/-- A file stands where a file stood or nothing, and all else is as it was. -/
structure Overwritten (t : FileTree) (target : Location) (bytes : List UInt8) (mode : Nat)
    (u : FileTree) : Prop where
  deadEnd : t.DeadEnd target
  written : ∃ accessed, u.find? target = some (.file bytes mode accessed)
  others : ∀ k, k ≠ target → u.find? k = t.find? k

namespace Overwritten

theorem put (hend : t.DeadEnd target) (hothers : ∀ k, k ≠ target → v.find? k = t.find? k)
    (accessed : Timestamp) :
    Overwritten t target bytes mode (v.put target (.file bytes mode accessed)) := by
  refine ⟨hend, ⟨accessed, ?_⟩, fun k hk => ?_⟩
  · rw [find?_put _ _ _ _ hend.ne_nil, if_pos rfl]
  · rw [find?_put _ _ _ _ hend.ne_nil, if_neg hk]
    exact hothers k hk

theorem isDirectoryAt (h : Overwritten t target bytes mode u) (hd : t.IsDirectoryAt l) :
    u.IsDirectoryAt l := by
  have hl : l ≠ target := by
    rintro rfl
    exact h.deadEnd.not_isDirectoryAt hd
  obtain ⟨_, hd⟩ := hd
  exact ⟨_, (h.others l hl).trans hd⟩

/-- A walk that may end at something new finds it once it has been written. -/
theorem walk (h : Overwritten t target bytes mode u)
    (hwalk : t.walk true links l steps = .ok target) : u.walk false links l steps = .ok target := by
  induction links, l, steps using walk.induct with
  | case1 links l => rwa [FileTree.walk] at hwalk ⊢
  | case2 links l rest ih =>
    rw [FileTree.walk] at hwalk ⊢
    exact ih hwalk
  | case3 links l rest ih =>
    rw [FileTree.walk, bind_eq_ok_iff] at hwalk
    obtain ⟨_, hd, hwalk⟩ := hwalk
    rw [walk_here (h.isDirectoryAt (requireDirectory_ok_iff.1 hd))]
    exact ih hwalk
  | case4 links l rest ih =>
    rw [FileTree.walk, bind_eq_ok_iff] at hwalk
    obtain ⟨_, hd, hwalk⟩ := hwalk
    rw [walk_up (h.isDirectoryAt (requireDirectory_ok_iff.1 hd))]
    exact ih hwalk
  | case5 links l cs rest ihfollow ihenter =>
    rw [FileTree.walk, bind_eq_ok_iff] at hwalk
    obtain ⟨_, hd, hwalk⟩ := hwalk
    rw [bind_eq_ok_iff] at hwalk
    obtain ⟨_, hn, hwalk⟩ := hwalk
    have hd := h.isDirectoryAt (requireDirectory_ok_iff.1 hd)
    obtain ⟨accessed, hwritten⟩ := h.written
    have hfile : ∀ link, Node.file bytes mode accessed ≠ .link link := by
      rintro link ⟨⟩
    split at hwalk
    next link hfind =>
      have hother : l ++ [String.ofList cs] ≠ target := by
        intro heq
        obtain ⟨_, _, _, hfile⟩ := h.deadEnd _ (heq ▸ hfind)
        cases hfile
      cases links with
      | zero => cases hwalk
      | succ links =>
        rw [walk_follow hd hn ((h.others _ hother).trans hfind)]
        exact ihfollow link hwalk
    next node hlink hfind =>
      by_cases heq : l ++ [String.ofList cs] = target
      · subst heq
        rw [walk_enter hd hn hwritten hfile]
        exact ihenter hwalk
      · rw [walk_enter hd hn ((h.others _ heq).trans hfind) hlink]
        exact ihenter hwalk
    next hfind =>
      split at hwalk
      next hlast =>
        obtain rfl : rest = [] := by simpa using hlast
        obtain rfl := Except.ok.inj hwalk
        rw [walk_enter hd hn hwritten hfile, FileTree.walk]
      · cases hwalk

theorem locate (h : Overwritten t target bytes mode u) (hp : t.Receives p target) :
    u.locate p = .ok target := by
  obtain ⟨passed, hway⟩ := exists_way (h.walk hp.walk)
  exact locate_ok_iff.2 ⟨hp.short, passed, hway⟩

theorem slot? (h : Overwritten t target bytes mode u) (hp : t.slot? p = .ok (some l)) :
    u.slot? p = .ok (some l) := by
  refine slot?_keep [target] hp (by simpa using h.deadEnd.ne_nil.symm)
    (by simpa using h.deadEnd.not_passesAbove p) fun {k} hk => ?_
  refine h.others k ?_
  rintro rfl
  exact hk.notBelow k (by simp) List.prefix_rfl

/-- What has been emptied can be filled. -/
theorem append (h : Overwritten t target [] mode v) (bytes : List UInt8) :
    ∃ u, (append target bytes).outcome v = (.ok (), u) ∧ Overwritten t target bytes mode u := by
  obtain ⟨accessed, hwritten⟩ := h.written
  refine ⟨_, ?_, .put h.deadEnd h.others accessed⟩
  unfold FileTree.append
  rw [outcome_bind_ok (outcome_get v), hwritten]
  rfl

end Overwritten

/-- A file is written to where the path leads, if it leads to a file. -/
theorem Receives.locate (h : t.Receives p target) {node : Node}
    (hfind : t.find? target = some node) : t.locate p = .ok target := by
  obtain ⟨content, mode, accessed, rfl⟩ := h.deadEnd _ hfind
  exact Overwritten.locate ⟨h.deadEnd, ⟨accessed, hfind⟩, fun _ _ => rfl⟩ h

theorem allOrNothing_writable (p : Path) (t : FileTree) :
    AllOrNothing (writable p) t fun target u => u = t ∧ t.Receives p target := by
  unfold writable
  split
  · exact (allOrNothing_slot _ p t).bind fun _ _ => .throw _
  next hslash =>
    refine (allOrNothing_query _ t).bind fun target hwalk => .bind .get ?_
    rintro _ rfl
    split
    · exact .throw _
    next v hdirectory =>
      obtain ⟨_, hshort, hwalk⟩ := bind_eq_ok_iff.1 hwalk
      refine .pure ⟨rfl, hshort, by simpa using hslash, hwalk, fun node hfind => ?_⟩
      cases node with
      | file content mode accessed => exact ⟨_, _, _, rfl⟩
      | directory accessed => exact absurd hfind (hdirectory accessed)
      | link link =>
        exact absurd hfind (unlinked_of_walk hwalk (unlinked_nil _) _ List.prefix_rfl link)

theorem outcome_openFile (h : t.Receives p target) (mode : Nat) :
    ∃ v, (openFile p mode).outcome t = (.ok target, v) ∧ Overwritten t target [] mode v := by
  have hwritable : (writable p).outcome t = (.ok target, t) := by
    have hquery : (query fun t => do
        requirePath p
        t.walk true linkLimit [] p.steps).outcome t = (.ok target, t) := by
      rw [outcome_query, h.short]
      exact congrArg (·, t) h.walk
    unfold writable
    rw [if_neg (by simp [h.slash]), outcome_bind_ok hquery, outcome_bind_ok (outcome_get t)]
    split
    next hdirectory => exact absurd ⟨_, hdirectory⟩ h.deadEnd.not_isDirectoryAt
    · rfl
  refine ⟨_, ?_, .put h.deadEnd (fun _ _ => rfl) (((t.find? target).bind (·.accessed?)).getD t.now)⟩
  unfold openFile
  rw [outcome_bind_ok hwritable, outcome_bind_ok (outcome_get t)]
  rfl

theorem allOrNothing_openFile (p : Path) (mode : Nat) (t : FileTree) :
    AllOrNothing (openFile p mode) t fun target u =>
      t.Receives p target ∧ Overwritten t target [] mode u := by
  rcases allOrNothing_writable p t with ⟨cause, hwritable⟩ | ⟨target, v, -, rfl, hreceives⟩
  · exact .inl ⟨cause, outcome_bind_error hwritable _⟩
  · obtain ⟨u, hopen, hempty⟩ := outcome_openFile hreceives mode
    exact .inr ⟨target, u, hopen, hreceives, hempty⟩

end Overwriting

section Copying

variable {source destination : Path} {content : List UInt8}

/-- A file is copied from one location to another. -/
structure Copies (t : FileTree) (source destination : Path) (l target : Location)
    (content : List UInt8) (mode : Nat) : Prop where
  locate : t.locate source = .ok l
  found : ∃ accessed, t.find? l = some (.file content mode accessed)
  receives : t.Receives destination target

/-- What there is to copy once the destination has been emptied. -/
def leftToCopy (l target : Location) (content : List UInt8) : List UInt8 :=
  if l = target then [] else content

/-- What is copied can be read after the destination has been emptied. -/
theorem Copies.emptied (h : Copies t source destination l target content mode) {mode' : Nat}
    (hv : Overwritten t target [] mode' v) :
    ∃ mode accessed, v.find? l = some (.file (leftToCopy l target content) mode accessed) := by
  unfold leftToCopy
  split
  next heq =>
    obtain ⟨accessed, hwritten⟩ := hv.written
    exact ⟨mode', accessed, heq ▸ hwritten⟩
  next hne =>
    obtain ⟨accessed, hfound⟩ := h.found
    exact ⟨mode, accessed, (hv.others l hne).trans hfound⟩

/-- Once the destination is open, a copy succeeds. -/
theorem Copies.of_open (h : Copies t source destination l target content mode)
    (hlook : (onPath source (query (·.locate source))).outcome t = (.ok l, t))
    (hopen : (onPath destination (openFile destination mode)).outcome t = (.ok target, v))
    (hempty : Overwritten t target [] mode v) :
    ∃ u, (copy source destination).outcome t = (.ok (), u) ∧
      Overwritten t target (leftToCopy l target content) mode u := by
  obtain ⟨_, hfound⟩ := h.found
  obtain ⟨_, _, hleft⟩ := h.emptied hempty
  obtain ⟨u, happend, hfilled⟩ := hempty.append (leftToCopy l target content)
  refine ⟨u, ?_, hfilled⟩
  unfold copy
  rw [outcome_bind_ok hlook, outcome_bind_ok (outcome_get t), hfound]
  dsimp only
  rw [outcome_bind_ok hopen, outcome_bind_ok (outcome_get v), hleft]
  dsimp only
  rw [outcome_mapError, happend]
  rfl

theorem Copies.outcome_copy (h : Copies t source destination l target content mode)
    (hsource : '\x00' ∉ source.text.toList) (hdestination : '\x00' ∉ destination.text.toList) :
    ∃ u, (copy source destination).outcome t = (.ok (), u) ∧
      Overwritten t target (leftToCopy l target content) mode u := by
  obtain ⟨v, hopen, hempty⟩ := outcome_openFile h.receives mode
  have hlook : (query (·.locate source)).outcome t = (.ok l, t) := by
    rw [outcome_query, h.locate]
  exact h.of_open (outcome_onPath_of_ok hsource hlook) (outcome_onPath_of_ok hdestination hopen)
    hempty

theorem allOrNothing_copy (source destination : Path) (t : FileTree) :
    AllOrNothing (copy source destination) t fun _ u => ∃ l target content mode,
      Copies t source destination l target content mode ∧
        Overwritten t target (leftToCopy l target content) mode u := by
  rcases allOrNothing_onPath (allOrNothing_query (·.locate source) t) source with
    ⟨cause, hlook⟩ | ⟨l, t, hlook, rfl, hlocate⟩
  · exact .inl ⟨cause, outcome_bind_error hlook _⟩
  by_cases hfile : ∃ content mode accessed, t.find? l = some (.file content mode accessed)
  · obtain ⟨content, mode, accessed, hfound⟩ := hfile
    rcases allOrNothing_onPath (allOrNothing_openFile destination mode t) destination with
      ⟨cause, hopen⟩ | ⟨target, v, hopen, hreceives, hempty⟩
    · refine .inl ⟨cause, ?_⟩
      unfold copy
      rw [outcome_bind_ok hlook, outcome_bind_ok (outcome_get t), hfound]
      exact outcome_bind_error hopen _
    · have hcopies : Copies t source destination l target content mode :=
        ⟨hlocate, ⟨accessed, hfound⟩, hreceives⟩
      obtain ⟨u, hcopy, hfilled⟩ := hcopies.of_open hlook hopen hempty
      exact .inr ⟨(), u, hcopy, l, target, content, mode, hcopies, hfilled⟩
  · unfold AllOrNothing copy
    rw [outcome_bind_ok hlook, outcome_bind_ok (outcome_get t)]
    split
    next hfound => exact absurd ⟨_, _, _, hfound⟩ hfile
    · exact .inl ⟨_, rfl⟩
    · exact .inl ⟨_, rfl⟩

end Copying

end RemoteAgent.FileTree
