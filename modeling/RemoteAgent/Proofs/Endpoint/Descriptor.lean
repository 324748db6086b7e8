import RemoteAgent.Endpoint.Descriptor
import RemoteAgent.Proofs.SortedMap

/-! # What descriptors describe

A descriptor is read as an endpoint just if it describes that endpoint, which is told by the values
of its fields alone. An array stands for the object that has its items for the values of the fields.
-/

namespace RemoteAgent.Descriptor

open SortedMap

/-- A name, alone or as the only field of an object. -/
def Names (v : Json) (name : String) : Prop :=
  v = .string name ∨ v = .object [(name, .null)]

def IsText (v : Json) (s : String) : Prop :=
  v = .string s

inductive IsPort : Json → Option UInt16 → Prop where

  | none : IsPort .null none

  | some (port : UInt16) : IsPort (.integer port.toNat) (some port)

/-- An object whose fields are texts. -/
def IsEnvironment (v : Json) (m : SortedMap String) : Prop :=
  ∃ fields, v = .object fields ∧ ∀ name, v.field? name = (m.find? name).map .string

/-- A value, or its default if it is absent. -/
def Given {α : Type} (P : Json → α → Prop) (default : α) : Option Json → α → Prop
  | none, a => a = default
  | some v, a => P v a

/-- An object that describes an endpoint. -/
structure Describes (v : Json) (e : Endpoint) : Prop where
  protocol : ∃ p, v.field? "protocol" = some p ∧ Names p (protocolName e.protocol)
  side : ∃ s, v.field? "kind" = some s ∧ Names s (sideName e.side)
  username : Given IsText "" (v.field? "username") e.username
  hostname : Given IsText "" (v.field? "hostname") e.hostname
  port : Given IsPort none (v.field? "port") e.port
  path : Given IsText "" (v.field? "path") e.path
  environment : Given IsEnvironment .empty (v.field? "environment") e.environment

/-- The names of the fields in their order. -/
def fieldNames : List String :=
  ["protocol", "kind", "username", "hostname", "port", "path", "environment"]

section Parts

variable {v : Json} {o : Option Json}

theorem Given.of_none {α : Type} {P : Json → α → Prop} {default a : α}
    (h : Given P default o a) (ho : o = none) : a = default := by
  rwa [ho] at h

theorem Given.of_some {α : Type} {P : Json → α → Prop} {default a : α}
    (h : Given P default o a) (ho : o = some v) : P v a := by
  rwa [ho] at h

theorem ofNames_eq_ok_iff {α : Type} {known : List (String × α)} {a : α}
    (h : (known.map (·.1)).Nodup) :
    ofNames known v = .ok a ↔ ∃ name, (name, a) ∈ known ∧ Names v name := by
  have hnamed : ∀ name, ofNames known (.string name) = .ok a ↔ (name, a) ∈ known := by
    intro name
    unfold ofNames
    rcases hfound : known.find? (·.1 = name) with _ | ⟨_, b⟩ <;> dsimp only <;> rw [hfound]
    · refine ⟨nofun, fun hmem => ?_⟩
      cases hfound.symm.trans ((find?_name_iff h).2 ⟨hmem, rfl⟩)
    · obtain ⟨hmem, rfl⟩ := (find?_name_iff h).1 hfound
      constructor
      · intro heq
        cases heq
        exact hmem
      · intro ha
        cases hfound.symm.trans ((find?_name_iff h).2 ⟨ha, rfl⟩)
        rfl
  have hsingle : ∀ name content, ofNames known (.object [(name, content)]) = .ok a ↔
      ofNames known (.string name) = .ok a ∧ content = .null := by
    intro name content
    refine bind_eq_ok_iff.trans ⟨?_, fun ⟨ha, hcontent⟩ => ⟨a, ha, by rw [hcontent]⟩⟩
    rintro ⟨b, hb, h⟩
    cases content <;> cases h
    exact ⟨hb, rfl⟩
  cases v with
  | string name => simp [hnamed, Names]
  | object fields =>
    match fields with
    | [] => simp [ofNames, Names]
    | [(name, content)] => simp [hsingle, hnamed, Names]
    | _ :: _ :: _ => simp [ofNames, Names]
  | _ => simp [ofNames, Names]

theorem protocol_eq_ok_iff {p : Protocol} : protocol v = .ok p ↔ Names v (protocolName p) := by
  rw [protocol, ofNames_eq_ok_iff (by decide)]
  cases p <;> simp [protocols, protocolName]

theorem side_eq_ok_iff {s : Side} : side v = .ok s ↔ Names v (sideName s) := by
  rw [side, ofNames_eq_ok_iff (by decide)]
  cases s <;> simp [sides, sideName]

theorem text_eq_ok_iff {s : String} : text v = .ok s ↔ IsText v s := by
  unfold text IsText
  cases v <;> simp

theorem port_eq_ok_iff {p : Option UInt16} : port v = .ok p ↔ IsPort v p := by
  constructor
  · intro h
    unfold port at h
    split at h
    · cases h
      exact .none
    · split at h
      next n hn =>
        cases h
        have hport : ((UInt16.ofNat n.toNat).toNat : Int) = n := by
          rw [UInt16.toNat_ofNat', Nat.mod_eq_of_lt (by omega), Int.toNat_of_nonneg hn.1]
        have hsome := IsPort.some (UInt16.ofNat n.toNat)
        rwa [hport] at hsome
      · split at h <;> cases h
    · cases h
  · rintro (_ | port)
    · rfl
    · have hlt := port.toNat_lt
      rw [Descriptor.port, if_pos (by omega)]
      simp

theorem map_text_iff {found : Option String} :
    o.map text = found.map .ok ↔ o = found.map .string := by
  cases o <;> cases found <;> simp [text_eq_ok_iff, IsText]

theorem environment_eq_ok_iff {m : SortedMap String} :
    environment v = .ok m ↔ IsEnvironment v m := by
  unfold IsEnvironment
  cases v with
  | object fields =>
    rw [environment, mapM_eq_ok_iff]
    simp only [Json.object.injEq, exists_eq_left', find?_ofList, Json.field?, map_text_iff]
  | _ => simp [environment]

theorem optional_eq_ok_iff {α : Type} {read : Json → Except DescriptorError α} {P : Json → α → Prop}
    {default a : α} (h : ∀ v a, read v = .ok a ↔ P v a) :
    optional read default o = .ok a ↔ Given P default o a := by
  cases o with
  | none => simp [optional, Given, eq_comm]
  | some v => exact h v a

theorem optional_text_eq_ok_iff {s : String} :
    optional text "" o = .ok s ↔ Given IsText "" o s :=
  optional_eq_ok_iff fun _ _ => text_eq_ok_iff

theorem optional_port_eq_ok_iff {p : Option UInt16} :
    optional port none o = .ok p ↔ Given IsPort none o p :=
  optional_eq_ok_iff fun _ _ => port_eq_ok_iff

theorem optional_environment_eq_ok_iff {m : SortedMap String} :
    optional environment .empty o = .ok m ↔ Given IsEnvironment .empty o m :=
  optional_eq_ok_iff fun _ _ => environment_eq_ok_iff

end Parts

section Whole

variable {v : Json} {e : Endpoint} {items : List Json} {fields fields' : List (String × Json)}
  {name : String}

theorem mapM_eq_ok_some_iff {α : Type} {read : Json → Except DescriptorError α} {o : Option Json}
    {a : α} : o.mapM read = .ok (some a) ↔ ∃ v, o = some v ∧ read v = .ok a := by
  cases o with
  | none => simp [pure, Except.pure]
  | some v =>
    simp only [Option.mapM_some, Option.some.injEq, exists_eq_left']
    cases read v <;> simp [Functor.map, Except.map]

theorem ofFields_eq_ok_iff : ofFields v = .ok e ↔ Describes v e := by
  have hprotocol := @mapM_eq_ok_some_iff _ protocol (v.field? "protocol")
  have hside := @mapM_eq_ok_some_iff _ side (v.field? "kind")
  simp only [protocol_eq_ok_iff, side_eq_ok_iff] at hprotocol hside
  simp only [ofFields, bind_eq_ok_iff, optional_text_eq_ok_iff, optional_port_eq_ok_iff,
    optional_environment_eq_ok_iff]
  constructor
  · rintro ⟨environment, henvironment, hostname, hhostname, side?, hs, path, hpath, port, hport,
      protocol?, hp, username, husername, h⟩
    rcases protocol? with _ | protocol
    · cases h
    · rcases side? with _ | side
      · cases h
      · cases h
        exact ⟨hprotocol.1 hp, hside.1 hs, husername, hhostname, hport, hpath, henvironment⟩
  · rintro ⟨hp, hs, husername, hhostname, hport, hpath, henvironment⟩
    exact ⟨_, henvironment, _, hhostname, _, hside.2 hs, _, hpath, _, hport, _, hprotocol.2 hp, _,
      husername, rfl⟩

/-- The object that an array stands for. -/
def asObject (items : List Json) : Json :=
  .object (fieldNames.zip items)

theorem field?_asObject {i : Nat} (items : List Json) (hi : fieldNames[i]? = some name) :
    (asObject items).field? name = items[i]? := by
  have hnames : fieldNames.Nodup := by decide
  rw [asObject, Json.field?, find?_name_reverse (nodup_zip hnames items),
    find?_name_zip hnames items hi]

theorem describes_asObject_iff {p k : Json} {r : List Json} :
    Describes (asObject (p :: k :: r)) e ↔
      Names p (protocolName e.protocol) ∧ Names k (sideName e.side) ∧
        Given IsText "" r[0]? e.username ∧ Given IsText "" r[1]? e.hostname ∧
        Given IsPort none r[2]? e.port ∧ Given IsText "" r[3]? e.path ∧
        Given IsEnvironment .empty r[4]? e.environment := by
  have hfield : ∀ i name, fieldNames[i]? = some name →
      (asObject (p :: k :: r)).field? name = (p :: k :: r)[i]? := fun _ _ => field?_asObject _
  constructor
  · rintro ⟨⟨p', hp', hp⟩, ⟨k', hk', hk⟩, husername, hhostname, hport, hpath, henvironment⟩
    rw [hfield 0 _ rfl] at hp'
    rw [hfield 1 _ rfl] at hk'
    cases hp'
    cases hk'
    rw [hfield 2 _ rfl] at husername
    rw [hfield 3 _ rfl] at hhostname
    rw [hfield 4 _ rfl] at hport
    rw [hfield 5 _ rfl] at hpath
    rw [hfield 6 _ rfl] at henvironment
    exact ⟨hp, hk, husername, hhostname, hport, hpath, henvironment⟩
  · rintro ⟨hp, hk, husername, hhostname, hport, hpath, henvironment⟩
    refine ⟨⟨p, hfield 0 _ rfl, hp⟩, ⟨k, hfield 1 _ rfl, hk⟩, ?_, ?_, ?_, ?_, ?_⟩
    · rwa [hfield 2 _ rfl]
    · rwa [hfield 3 _ rfl]
    · rwa [hfield 4 _ rfl]
    · rwa [hfield 5 _ rfl]
    · rwa [hfield 6 _ rfl]

theorem ofItems_eq_ok_iff :
    ofItems items = .ok e ↔ items.length ≤ 7 ∧ Describes (asObject items) e := by
  rcases items with _ | ⟨p, _ | ⟨k, r⟩⟩
  · refine ⟨nofun, ?_⟩
    rintro ⟨-, ⟨p, hp, -⟩, -⟩
    cases hp
  · refine ⟨fun h => ?_, ?_⟩
    · obtain ⟨_, -, h⟩ := bind_eq_ok_iff.1 h
      cases h
    · rintro ⟨-, -, ⟨s, hs, -⟩, -⟩
      cases hs
  · have hlength : (p :: k :: r).length ≤ 7 ↔ r.length ≤ 5 := by
      simp only [List.length_cons]
      omega
    simp only [ofItems, bind_eq_ok_iff, protocol_eq_ok_iff, side_eq_ok_iff,
      optional_text_eq_ok_iff, optional_port_eq_ok_iff, optional_environment_eq_ok_iff,
      describes_asObject_iff, hlength]
    constructor
    · rintro ⟨protocol, hp, side, hk, username, husername, hostname, hhostname, port, hport, path,
        hpath, environment, henvironment, h⟩
      split at h
      next hshort =>
        cases h
        exact ⟨hshort, hp, hk, husername, hhostname, hport, hpath, henvironment⟩
      next => cases h
    · rintro ⟨hshort, hp, hk, husername, hhostname, hport, hpath, henvironment⟩
      refine ⟨_, hp, _, hk, _, husername, _, hhostname, _, hport, _, hpath, _, henvironment, ?_⟩
      rw [if_pos hshort]

theorem isPort_toJson (e : Endpoint) : Given IsPort none (e.toJson.field? "port") e.port := by
  rcases e with ⟨protocol, side, username, hostname, _ | port, path, environment⟩
  · exact IsPort.none
  · exact IsPort.some port

theorem describes_toJson (e : Endpoint) : Describes e.toJson e := by
  refine ⟨⟨_, rfl, .inl rfl⟩, ⟨_, rfl, .inl rfl⟩, rfl, rfl, isPort_toJson e, rfl, _, rfl, ?_⟩
  intro name
  have hnames := e.environment.nodup_names
  rw [Json.field?, find?_name_reverse, find?_name_map, find?, Option.map_map, Option.map_map]
  · rfl
  · rwa [List.map_map]

theorem ofFields_congr {v v' : Json} (h : ∀ name ∈ fieldNames, v.field? name = v'.field? name) :
    ofFields v = ofFields v' := by
  simp only [fieldNames, List.forall_mem_cons, List.not_mem_nil] at h
  obtain ⟨hprotocol, hside, husername, hhostname, hport, hpath, henvironment, -⟩ := h
  simp only [ofFields, hprotocol, hside, husername, hhostname, hport, hpath, henvironment]

theorem field?_perm (h : (fields.map (·.1)).Nodup) (hperm : fields.Perm fields') (name : String) :
    (Json.object fields).field? name = (Json.object fields').field? name := by
  have hreverse : fields.reverse.Perm fields'.reverse :=
    fields.reverse_perm.trans (hperm.trans fields'.reverse_perm.symm)
  rw [Json.field?, Json.field?, find?_name_perm _ hreverse]
  rwa [List.map_reverse, List.nodup_reverse]

theorem field?_filter (fields : List (String × Json)) (h : name ∈ fieldNames) :
    (Json.object (fields.filter fun f => f.1 ∈ fieldNames)).field? name =
      (Json.object fields).field? name := by
  rw [Json.field?, Json.field?, ← List.filter_reverse, List.find?_filter]
  congr 2
  funext f
  by_cases hname : f.1 = name
  · simp [hname, h]
  · simp [hname]

end Whole

section Laws

/-- An object with something that keeps it from describing an endpoint. -/
inductive Flawed (v : Json) : Prop where

  | protocol : (∀ p, v.field? "protocol" = some p → ∀ q, ¬ Names p (protocolName q)) → Flawed v

  | side : (∀ s, v.field? "kind" = some s → ∀ q, ¬ Names s (sideName q)) → Flawed v

  | port {p : Json} : v.field? "port" = some p → p ≠ .null →
      (∀ n, p = .integer n → n < 0 ∨ 65536 ≤ n) → Flawed v

  | text {name : String} {t : Json} : name ∈ ["username", "hostname", "path"] →
      v.field? name = some t → (∀ s, t ≠ .string s) → Flawed v

  | environment {m : Json} : v.field? "environment" = some m → (∀ fields, m ≠ .object fields) →
      Flawed v

  | value {m t : Json} {name : String} : v.field? "environment" = some m →
      m.field? name = some t → (∀ s, t ≠ .string s) → Flawed v

theorem Flawed.not_describes {v : Json} (h : Flawed v) (e : Endpoint) : ¬ Describes v e := by
  intro hd
  cases h with
  | protocol hp =>
    obtain ⟨p, hfield, hnames⟩ := hd.protocol
    exact hp p hfield _ hnames
  | side hs =>
    obtain ⟨s, hfield, hnames⟩ := hd.side
    exact hs s hfield _ hnames
  | port hfield hnull hrange =>
    have hport := hd.port.of_some hfield
    generalize e.port = port at hport
    cases hport with
    | none => exact hnull rfl
    | some port =>
      have := hrange _ rfl
      have := port.toNat_lt
      omega
  | text hname hfield htext =>
    simp only [List.mem_cons, List.not_mem_nil, or_false] at hname
    rcases hname with rfl | rfl | rfl
    · exact htext _ (hd.username.of_some hfield)
    · exact htext _ (hd.hostname.of_some hfield)
    · exact htext _ (hd.path.of_some hfield)
  | environment hfield hobject =>
    obtain ⟨fields, hfields, -⟩ := hd.environment.of_some hfield
    exact hobject fields hfields
  | value hfield hvalue htext =>
    obtain ⟨fields, -, hfound⟩ := hd.environment.of_some hfield
    obtain ⟨s, -, hs⟩ := Option.map_eq_some_iff.1 ((hfound _).symm.trans hvalue)
    exact htext s hs.symm

/-- How endpoints are written and read. -/
structure Lawful : Prop where
  readBack : ∀ e : Endpoint, Endpoint.ofJson e.toJson = .ok e
  object : ∀ fields e, Endpoint.ofJson (.object fields) = .ok e ↔ Describes (.object fields) e
  array : ∀ items e, Endpoint.ofJson (.array items) = .ok e ↔
    items.length ≤ 7 ∧ Describes (asObject items) e
  array_object : ∀ items, items.length ≤ 7 →
    (Endpoint.ofJson (.array items)).toOption = (Endpoint.ofJson (asObject items)).toOption
  byName : ∀ fields fields', (∀ name ∈ fieldNames,
    (Json.object fields).field? name = (Json.object fields').field? name) →
    Endpoint.ofJson (.object fields) = Endpoint.ofJson (.object fields')
  permuted : ∀ fields fields', (fields.map (·.1)).Nodup → fields.Perm fields' →
    Endpoint.ofJson (.object fields) = Endpoint.ofJson (.object fields')
  unknown : ∀ fields, Endpoint.ofJson (.object (fields.filter fun f => f.1 ∈ fieldNames)) =
    Endpoint.ofJson (.object fields)
  absent : ∀ fields e, Endpoint.ofJson (.object fields) = .ok e →
    ((Json.object fields).field? "username" = none → e.username = "") ∧
    ((Json.object fields).field? "hostname" = none → e.hostname = "") ∧
    ((Json.object fields).field? "port" = none → e.port = none) ∧
    ((Json.object fields).field? "path" = none → e.path = "") ∧
    ((Json.object fields).field? "environment" = none → e.environment = .empty)
  flawedObject : ∀ fields, Flawed (.object fields) →
    ∃ cause, Endpoint.ofJson (.object fields) = .error cause
  flawedArray : ∀ items, Flawed (asObject items) →
    ∃ cause, Endpoint.ofJson (.array items) = .error cause
  neither : ∀ v, (∀ fields, v ≠ .object fields) → (∀ items, v ≠ .array items) →
    ∃ cause, Endpoint.ofJson v = .error cause

theorem exists_error {ε α : Type} {x : Except ε α} (h : ∀ a, x ≠ .ok a) : ∃ e, x = .error e := by
  cases x with
  | error e => exact ⟨e, rfl⟩
  | ok a => exact absurd rfl (h a)

theorem toOption_congr {ε α : Type} {x y : Except ε α} (h : ∀ a, x = .ok a ↔ y = .ok a) :
    x.toOption = y.toOption := by
  cases x with
  | ok a => rw [(h a).1 rfl]
  | error e =>
    cases y with
    | ok a => cases (h a).2 rfl
    | error e' => rfl

/-- An endpoint is read back from its descriptor. What is read is told by the values of the known
fields, in whatever order they stand and whatever else stands among them. -/
theorem descriptor_lawful : Lawful := by
  constructor
  case readBack => exact fun e => ofFields_eq_ok_iff.2 (describes_toJson e)
  case object => exact fun fields e => ofFields_eq_ok_iff
  case array => exact fun items e => ofItems_eq_ok_iff
  case array_object =>
    refine fun items hlength => toOption_congr fun e => ofItems_eq_ok_iff.trans ?_
    rw [and_iff_right hlength]
    exact ofFields_eq_ok_iff.symm
  case byName => exact fun fields fields' h => ofFields_congr h
  case permuted =>
    exact fun fields fields' h hperm => ofFields_congr fun _ _ => field?_perm h hperm _
  case unknown => exact fun fields => ofFields_congr fun _ hname => field?_filter fields hname
  case absent =>
    intro fields e h
    have hd := ofFields_eq_ok_iff.1 h
    exact ⟨hd.username.of_none, hd.hostname.of_none, hd.port.of_none, hd.path.of_none,
      hd.environment.of_none⟩
  case flawedObject =>
    exact fun fields h => exists_error fun e he => h.not_describes e (ofFields_eq_ok_iff.1 he)
  case flawedArray =>
    exact fun items h => exists_error fun e he => h.not_describes e (ofItems_eq_ok_iff.1 he).2
  case neither =>
    intro v hobject harray
    unfold Endpoint.ofJson
    split
    next fields => exact absurd rfl (hobject fields)
    next items => exact absurd rfl (harray items)
    next => exact ⟨_, rfl⟩

end Laws

end RemoteAgent.Descriptor
