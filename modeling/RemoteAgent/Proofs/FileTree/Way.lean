import RemoteAgent.FileTree.Walk
import RemoteAgent.Proofs.Effect

/-! # Ways through file trees

A walk that finds its end is a way: each of its steps starts from a directory, and it enters
locations by their names. A way depends on nothing but the locations that it enters. So it stays the
same when others are taken out of the tree, and taking something out opens no new ways.
-/

namespace RemoteAgent.FileTree

variable {t : FileTree} {links : Nat} {l m r k : Location} {steps rest : List Path.Component}
  {passed : List Location}

def IsDirectoryAt (t : FileTree) (l : Location) : Prop :=
  ∃ accessed, t.find? l = some (.directory accessed)

theorem requireDirectory_ok_iff : t.requireDirectory l = .ok () ↔ t.IsDirectoryAt l := by
  unfold requireDirectory IsDirectoryAt
  split
  next accessed h => exact ⟨fun _ => ⟨accessed, h⟩, fun _ => rfl⟩
  next node hne h =>
    refine ⟨nofun, ?_⟩
    rintro ⟨accessed, h'⟩
    cases h.symm.trans h'
    exact absurd rfl (hne accessed)
  next h =>
    refine ⟨nofun, ?_⟩
    rintro ⟨accessed, h'⟩
    cases h.symm.trans h'

section Steps

variable {mayBeNew : Bool} {cs : List Char} {node : Node} {target : Path}

theorem walk_here (hd : t.IsDirectoryAt l) :
    t.walk mayBeNew links l (.here :: rest) = t.walk mayBeNew links l rest := by
  rw [walk, requireDirectory_ok_iff.2 hd]
  rfl

theorem walk_up (hd : t.IsDirectoryAt l) :
    t.walk mayBeNew links l (.up :: rest) = t.walk mayBeNew links l.dropLast rest := by
  rw [walk, requireDirectory_ok_iff.2 hd]
  rfl

theorem walk_name (hd : t.IsDirectoryAt l) (hn : requireName (String.ofList cs) = .ok ()) :
    t.walk mayBeNew links l (.name cs :: rest) =
      match t.find? (l ++ [String.ofList cs]) with
      | some (.link target) =>
        match links with
        | 0 => .error .linkLoop
        | links + 1 => t.walk mayBeNew links l (target.steps ++ rest)
      | some _ => t.walk mayBeNew links (l ++ [String.ofList cs]) rest
      | none =>
        if mayBeNew && rest.isEmpty then .ok (l ++ [String.ofList cs]) else .error .noEntry := by
  rw [walk, requireDirectory_ok_iff.2 hd]
  dsimp only
  rw [hn]
  rfl

theorem walk_enter (hd : t.IsDirectoryAt l) (hn : requireName (String.ofList cs) = .ok ())
    (hfind : t.find? (l ++ [String.ofList cs]) = some node)
    (hlink : ∀ target, node ≠ .link target) :
    t.walk mayBeNew links l (.name cs :: rest) =
      t.walk mayBeNew links (l ++ [String.ofList cs]) rest := by
  rw [walk_name hd hn, hfind]
  cases node with
  | link target => exact absurd rfl (hlink target)
  | file | directory => rfl

theorem walk_follow (hd : t.IsDirectoryAt l) (hn : requireName (String.ofList cs) = .ok ())
    (hfind : t.find? (l ++ [String.ofList cs]) = some (.link target)) :
    t.walk mayBeNew (links + 1) l (.name cs :: rest) =
      t.walk mayBeNew links l (target.steps ++ rest) := by
  rw [walk_name hd hn, hfind]

end Steps

section Ways

variable (t) in
/-- Steps lead from one location to another, and enter others by name on the way, links included. So
many links may be followed. -/
inductive Way : Nat → Location → List Path.Component → List Location → Location → Prop where

  | arrived {links : Nat} {l : Location} : Way links l [] [] l

  | root {links : Nat} {l r : Location} {rest : List Path.Component} {passed : List Location} :
      Way links [] rest passed r → Way links l (.root :: rest) passed r

  | here {links : Nat} {l r : Location} {rest : List Path.Component} {passed : List Location} :
      t.IsDirectoryAt l → Way links l rest passed r → Way links l (.here :: rest) passed r

  | up {links : Nat} {l r : Location} {rest : List Path.Component} {passed : List Location} :
      t.IsDirectoryAt l → Way links l.dropLast rest passed r →
      Way links l (.up :: rest) passed r

  | enter {links : Nat} {l r : Location} {cs : List Char} {node : Node}
      {rest : List Path.Component} {passed : List Location} :
      t.IsDirectoryAt l → requireName (String.ofList cs) = .ok () →
      t.find? (l ++ [String.ofList cs]) = some node → (∀ target, node ≠ .link target) →
      Way links (l ++ [String.ofList cs]) rest passed r →
      Way links l (.name cs :: rest) ((l ++ [String.ofList cs]) :: passed) r

  | follow {links : Nat} {l r : Location} {cs : List Char} {target : Path}
      {rest : List Path.Component} {passed : List Location} :
      t.IsDirectoryAt l → requireName (String.ofList cs) = .ok () →
      t.find? (l ++ [String.ofList cs]) = some (.link target) →
      Way links l (target.steps ++ rest) passed r →
      Way (links + 1) l (.name cs :: rest) ((l ++ [String.ofList cs]) :: passed) r

theorem Way.walk_eq {mayBeNew : Bool} (h : t.Way links l steps passed r) :
    t.walk mayBeNew links l steps = .ok r := by
  induction h with
  | arrived => rw [walk]
  | root _ ih => rw [walk, ih]
  | here hd _ ih => rw [walk_here hd, ih]
  | up hd _ ih => rw [walk_up hd, ih]
  | enter hd hn hfind hlink _ ih => rw [walk_enter hd hn hfind hlink, ih]
  | follow hd hn hfind _ ih => rw [walk_follow hd hn hfind, ih]

theorem exists_way (h : t.walk false links l steps = .ok r) :
    ∃ passed, t.Way links l steps passed r := by
  induction links, l, steps using walk.induct with
  | case1 links l =>
    rw [walk] at h
    cases h
    exact ⟨_, .arrived⟩
  | case2 links l rest ih =>
    rw [walk] at h
    obtain ⟨passed, hway⟩ := ih h
    exact ⟨_, .root hway⟩
  | case3 links l rest ih =>
    rw [walk, bind_eq_ok_iff] at h
    obtain ⟨_, hd, h⟩ := h
    obtain ⟨passed, hway⟩ := ih h
    exact ⟨_, .here (requireDirectory_ok_iff.1 hd) hway⟩
  | case4 links l rest ih =>
    rw [walk, bind_eq_ok_iff] at h
    obtain ⟨_, hd, h⟩ := h
    obtain ⟨passed, hway⟩ := ih h
    exact ⟨_, .up (requireDirectory_ok_iff.1 hd) hway⟩
  | case5 links l cs rest ihfollow ihenter =>
    rw [walk, bind_eq_ok_iff] at h
    obtain ⟨_, hd, h⟩ := h
    rw [bind_eq_ok_iff] at h
    obtain ⟨_, hn, h⟩ := h
    have hd := requireDirectory_ok_iff.1 hd
    split at h
    next target hfind =>
      cases links with
      | zero => cases h
      | succ links =>
        obtain ⟨passed, hway⟩ := ihfollow target h
        exact ⟨_, .follow hd hn hfind hway⟩
    next node hlink hfind =>
      obtain ⟨passed, hway⟩ := ihenter h
      refine ⟨_, .enter hd hn hfind (fun target heq => ?_) hway⟩
      exact hlink target heq
    next => cases h

/-- Where steps lead, and what they pass, is told by the tree. -/
theorem Way.unique {passed' : List Location} {r' : Location}
    (h : t.Way links l steps passed r) (h' : t.Way links l steps passed' r') :
    passed = passed' ∧ r = r' := by
  induction h generalizing passed' r' with
  | arrived =>
    cases h'
    exact ⟨rfl, rfl⟩
  | root _ ih =>
    cases h' with
    | root h' => exact ih h'
  | here _ _ ih =>
    cases h' with
    | here _ h' => exact ih h'
  | up _ _ ih =>
    cases h' with
    | up _ h' => exact ih h'
  | enter _ _ hfind hlink _ ih =>
    cases h' with
    | enter _ _ _ _ h' =>
      obtain ⟨rfl, rfl⟩ := ih h'
      exact ⟨rfl, rfl⟩
    | follow _ _ hfind' =>
      cases hfind.symm.trans hfind'
      exact absurd rfl (hlink _)
  | follow _ _ hfind _ ih =>
    cases h' with
    | enter _ _ hfind' hlink =>
      cases hfind.symm.trans hfind'
      exact absurd rfl (hlink _)
    | follow _ _ hfind' h' =>
      cases hfind.symm.trans hfind'
      obtain ⟨rfl, rfl⟩ := ih h'
      exact ⟨rfl, rfl⟩

theorem Way.found (h : t.Way links l steps passed r) :
    ∀ k ∈ passed, ∃ node, t.find? k = some node := by
  induction h with
  | arrived => exact nofun
  | root _ ih | here _ _ ih | up _ _ ih => exact ih
  | enter _ _ hfind _ _ ih | follow _ _ hfind _ ih =>
    exact List.forall_mem_cons.2 ⟨⟨_, hfind⟩, ih⟩

/-- A way along some steps and then others is a way along the first and one along the others. -/
theorem Way.split {first second : List Path.Component}
    (h : t.Way links l (first ++ second) passed r) :
    ∃ links' passed₁ m passed₂, passed = passed₁ ++ passed₂ ∧
      t.Way links l first passed₁ m ∧ t.Way links' m second passed₂ r := by
  generalize hsteps : first ++ second = steps at h
  induction h generalizing first with
  | @arrived links l =>
    obtain ⟨rfl, rfl⟩ := List.append_eq_nil_iff.1 hsteps
    exact ⟨links, [], l, [], rfl, .arrived, .arrived⟩
  | root hway ih =>
    rcases List.append_eq_cons_iff.1 hsteps with ⟨rfl, rfl⟩ | ⟨first, rfl, rfl⟩
    · exact ⟨_, [], _, _, rfl, .arrived, .root hway⟩
    · obtain ⟨links', passed₁, m, passed₂, rfl, h₁, h₂⟩ := ih rfl
      exact ⟨links', passed₁, m, passed₂, rfl, .root h₁, h₂⟩
  | here hd hway ih =>
    rcases List.append_eq_cons_iff.1 hsteps with ⟨rfl, rfl⟩ | ⟨first, rfl, rfl⟩
    · exact ⟨_, [], _, _, rfl, .arrived, .here hd hway⟩
    · obtain ⟨links', passed₁, m, passed₂, rfl, h₁, h₂⟩ := ih rfl
      exact ⟨links', passed₁, m, passed₂, rfl, .here hd h₁, h₂⟩
  | up hd hway ih =>
    rcases List.append_eq_cons_iff.1 hsteps with ⟨rfl, rfl⟩ | ⟨first, rfl, rfl⟩
    · exact ⟨_, [], _, _, rfl, .arrived, .up hd hway⟩
    · obtain ⟨links', passed₁, m, passed₂, rfl, h₁, h₂⟩ := ih rfl
      exact ⟨links', passed₁, m, passed₂, rfl, .up hd h₁, h₂⟩
  | enter hd hn hfind hlink hway ih =>
    rcases List.append_eq_cons_iff.1 hsteps with ⟨rfl, rfl⟩ | ⟨first, rfl, rfl⟩
    · exact ⟨_, [], _, _, rfl, .arrived, .enter hd hn hfind hlink hway⟩
    · obtain ⟨links', passed₁, m, passed₂, rfl, h₁, h₂⟩ := ih rfl
      exact ⟨links', _, m, passed₂, rfl, .enter hd hn hfind hlink h₁, h₂⟩
  | follow hd hn hfind hway ih =>
    rcases List.append_eq_cons_iff.1 hsteps with ⟨rfl, rfl⟩ | ⟨first, rfl, rfl⟩
    · exact ⟨_, [], _, _, rfl, .arrived, .follow hd hn hfind hway⟩
    · obtain ⟨links', passed₁, m, passed₂, rfl, h₁, h₂⟩ := ih (List.append_assoc _ _ _)
      exact ⟨links', _, m, passed₂, rfl, .follow hd hn hfind h₁, h₂⟩

end Ways

/-- A way may go on with steps that need no links. -/
theorem Way.append {more : List Path.Component} {passed' : List Location}
    (h : t.Way links l steps passed m) (h' : ∀ links, t.Way links m more passed' r) :
    t.Way links l (steps ++ more) (passed ++ passed') r := by
  induction h with
  | arrived => exact h' _
  | root _ ih => exact .root (ih h')
  | here hl _ ih => exact .here hl (ih h')
  | up hl _ ih => exact .up hl (ih h')
  | enter hl hn hfind hlink _ ih => exact .enter hl hn hfind hlink (ih h')
  | follow hl hn hfind _ ih =>
    rw [List.cons_append]
    refine .follow hl hn hfind ?_
    rw [← List.append_assoc]
    exact ih h'

/-- A way to a directory may ask for one. -/
theorem Way.append_here (h : t.Way links l steps passed r) (hd : t.IsDirectoryAt r) :
    t.Way links l (steps ++ [.here]) passed r := by
  rw [← List.append_nil passed]
  exact h.append fun _ => .here hd .arrived

/-- A way stays one in another tree that has all that it finds. What it finds is at locations of
some kind, and so is what is above them. -/
theorem Way.transfer {s : FileTree} {P : Location → Prop} (h : s.Way links l steps passed r)
    (habove : ∀ {k m}, P k → m <+: k → P m)
    (hfind : ∀ {k node}, P k → s.find? k = some node → t.find? k = some node)
    (hl : P l) (hpassed : ∀ k ∈ passed, P k) : t.Way links l steps passed r ∧ P r := by
  have hdirectory : ∀ {l}, P l → s.IsDirectoryAt l → t.IsDirectoryAt l :=
    fun hl ⟨accessed, h⟩ => ⟨accessed, hfind hl h⟩
  induction h with
  | arrived => exact ⟨.arrived, hl⟩
  | root _ ih =>
    obtain ⟨hway, hr⟩ := ih (habove hl List.nil_prefix) hpassed
    exact ⟨.root hway, hr⟩
  | here hd _ ih =>
    obtain ⟨hway, hr⟩ := ih hl hpassed
    exact ⟨.here (hdirectory hl hd) hway, hr⟩
  | up hd _ ih =>
    obtain ⟨hway, hr⟩ := ih (habove hl (List.dropLast_prefix _)) hpassed
    exact ⟨.up (hdirectory hl hd) hway, hr⟩
  | enter hd hn hf hlink _ ih =>
    obtain ⟨hk, hpassed⟩ := List.forall_mem_cons.1 hpassed
    obtain ⟨hway, hr⟩ := ih hk hpassed
    exact ⟨.enter (hdirectory hl hd) hn (hfind hk hf) hlink hway, hr⟩
  | follow hd hn hf _ ih =>
    obtain ⟨hk, hpassed⟩ := List.forall_mem_cons.1 hpassed
    obtain ⟨hway, hr⟩ := ih hl hpassed
    exact ⟨.follow (hdirectory hl hd) hn (hfind hk hf) hway, hr⟩

section Clearing

variable {ls : List Location}

/-- A location that is not at or below any of some others, the root not being one of them. -/
structure Avoids (ls : List Location) (l : Location) : Prop where
  root : [] ∉ ls
  notBelow : ∀ k ∈ ls, ¬ k <+: l

theorem Avoids.nil (hroot : [] ∉ ls) : Avoids ls [] := by
  refine ⟨hroot, fun k hk hbelow => hroot ?_⟩
  rwa [List.prefix_nil.1 hbelow] at hk

theorem Avoids.of_isPrefix (h : Avoids ls l) (hm : m <+: l) : Avoids ls m :=
  ⟨h.root, fun k hk hbelow => h.notBelow k hk (hbelow.trans hm)⟩

def clearAll (t : FileTree) (ls : List Location) : FileTree :=
  ls.foldl clear t

theorem find?_clearAll (hroot : [] ∉ ls) (l : Location) :
    (t.clearAll ls).find? l = if ∃ k ∈ ls, k <+: l then none else t.find? l := by
  induction ls generalizing t with
  | nil => simp [clearAll]
  | cons k ls ih =>
    obtain ⟨hk, hls⟩ := List.ne_and_not_mem_of_not_mem_cons hroot
    refine (ih hls).trans ?_
    rw [find?_clear t k l hk.symm]
    by_cases hbelow : k <+: l <;> simp [hbelow]

theorem find?_clearAll_of_avoids (h : Avoids ls l) : (t.clearAll ls).find? l = t.find? l := by
  rw [find?_clearAll h.root, if_neg]
  rintro ⟨k, hk, hbelow⟩
  exact h.notBelow k hk hbelow

theorem find?_of_clearAll (hroot : [] ∉ ls) {node : Node}
    (h : (t.clearAll ls).find? l = some node) : t.find? l = some node := by
  rw [find?_clearAll hroot] at h
  split at h
  · cases h
  · exact h

/-- Clearing opens no ways. -/
theorem Way.of_clearAll (hroot : [] ∉ ls) (h : (t.clearAll ls).Way links l steps passed r) :
    t.Way links l steps passed r :=
  (h.transfer (P := fun _ => True) (fun _ _ => trivial) (fun _ => find?_of_clearAll hroot) trivial
    fun _ _ => trivial).1

/-- A way that enters nothing at or below some locations is left when they are cleared, and it leads
to a place that is left. -/
theorem Way.clearAll (h : t.Way links l steps passed r) (hl : Avoids ls l)
    (hpassed : ∀ k ∈ passed, Avoids ls k) :
    (t.clearAll ls).Way links l steps passed r ∧ Avoids ls r :=
  h.transfer .of_isPrefix (fun hk => (find?_clearAll_of_avoids hk).trans) hl hpassed

theorem requireDirectory_clearAll (hroot : [] ∉ ls) (h : t.IsDirectoryAt l) :
    (t.clearAll ls).IsDirectoryAt l ∨ (t.clearAll ls).requireDirectory l = .error .noEntry := by
  obtain ⟨accessed, hfind⟩ := h
  have hclear := find?_clearAll (t := t) hroot l
  split at hclear
  · exact .inr (by rw [requireDirectory, hclear])
  · exact .inl ⟨accessed, hclear.trans hfind⟩

/-- A way that is not left ends at something missing. -/
theorem walk_clearAll (hroot : [] ∉ ls) (h : t.Way links l steps passed r) :
    (t.clearAll ls).walk false links l steps = .ok r ∨
      (t.clearAll ls).walk false links l steps = .error .noEntry := by
  have hmissing : ∀ {links l steps}, (t.clearAll ls).requireDirectory l = .error .noEntry →
      ∀ c, c ≠ .root → (t.clearAll ls).walk false links l (c :: steps) = .error .noEntry := by
    intro links l steps hd c hc
    cases c with
    | root => exact absurd rfl hc
    | here | up | name => rw [walk, hd]; rfl
  induction h with
  | arrived => exact .inl (by rw [walk])
  | root _ ih => rwa [walk]
  | here hd _ ih =>
    rcases requireDirectory_clearAll hroot hd with hd | hd
    · rwa [walk_here hd]
    · exact .inr (hmissing hd _ (by simp))
  | up hd _ ih =>
    rcases requireDirectory_clearAll hroot hd with hd | hd
    · rwa [walk_up hd]
    · exact .inr (hmissing hd _ (by simp))
  | @enter _ l _ cs _ _ _ hd hn hfind hlink _ ih =>
    rcases requireDirectory_clearAll hroot hd with hd | hd
    · have hclear := find?_clearAll (t := t) hroot (l ++ [String.ofList cs])
      split at hclear
      · exact .inr (by rw [walk_name hd hn, hclear]; rfl)
      · rwa [walk_enter hd hn (hclear.trans hfind) hlink]
    · exact .inr (hmissing hd _ (by simp))
  | @follow _ l _ cs _ _ _ hd hn hfind _ ih =>
    rcases requireDirectory_clearAll hroot hd with hd | hd
    · have hclear := find?_clearAll (t := t) hroot (l ++ [String.ofList cs])
      split at hclear
      · exact .inr (by rw [walk_name hd hn, hclear]; rfl)
      · rwa [walk_follow hd hn (hclear.trans hfind)]
    · exact .inr (hmissing hd _ (by simp))

end Clearing

end RemoteAgent.FileTree
