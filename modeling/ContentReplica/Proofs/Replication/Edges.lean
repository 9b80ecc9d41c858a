import ContentReplica.Proofs.Replication.Records

/-!
# The edges of a record

An array of links is stored in its link table as edges: in each locale one for every target of the
payload, numbered from zero in payload order (`Mapping.edgeSet_eq`). The cells of an edge name the row
that owns it, its locale, its position and its target (`EdgeTo`), and tell them all apart
(`EdgeTo.unique`).

`RecordRows.Numbered` says of the rows of a record that its edges are numbered in this way and that it
has a row in the default locale. Every payload that converts is of this kind
(`Mapping.numbered_entryRows`, `Mapping.numbered_assetRows`).
-/

namespace ContentReplica

/-- A row is the edge at a position, with its locale, its position and its target beside the row that
owns it. -/
structure EdgeTo (sysId locale : String) (position : Nat) (target : String) (row : Row) : Prop
    extends EdgeOf sysId locale position row where
  locale : row.cell Column.locale = .text locale
  position : row.cell Column.position = .int position
  targetSysId : row.cell Column.targetSysId = .text target

/-- An edge settles its record, its locale, its position and its target. -/
theorem EdgeTo.unique {sysId sysId' locale locale' target target' : String}
    {position position' : Nat} {row : Row} (h : EdgeTo sysId locale position target row)
    (h' : EdgeTo sysId' locale' position' target' row) :
    sysId = sysId' ∧ locale = locale' ∧ position = position' ∧ target = target' := by
  refine ⟨Value.text.inj (h.ownerSysId.symm.trans h'.ownerSysId),
    Value.text.inj (h.locale.symm.trans h'.locale), ?_,
    Value.text.inj (h.targetSysId.symm.trans h'.targetSysId)⟩
  exact Int.ofNat.inj (Value.int.inj (h.position.symm.trans h'.position))

namespace Mapping

/-! ## Targets and their edges -/

/-- The cells of the edge at a position. -/
def edgeCells (sysId locale : String) (position : Nat) (target : String) : List Value :=
  let ownerId := Naming.rowId sysId locale
  [.text (Naming.rowId ownerId (toString position)), .text ownerId, .text sysId,
    .text (Naming.rowId target locale), .text target, .text locale, .int position]

/-- The edges of several targets in one locale, numbered from zero. -/
def edgeList (sysId locale : String) (targets : List String) : List (List Value) :=
  targets.zipIdx.map fun (target, position) => edgeCells sysId locale position target

/-- The targets of an array of links in one locale, in payload order. -/
def targets (m : Mapping) (e : Entry) (fieldId locale : String) : List String :=
  match m.payload? e fieldId locale with
  | some (.arr items) => items.filterMap linkId?
  | _ => []

/-- The cells of an edge are an edge of their link table. -/
theorem edgeTo_edgeCells (sysId locale : String) (position : Nat) (target : String) :
    EdgeTo sysId locale position target
      (Row.ofCells LinkTable.columns (edgeCells sysId locale position target)) where
  id := rfl
  ownerId := rfl
  ownerSysId := rfl
  locale := rfl
  position := rfl
  targetSysId := rfl

/-- An edge is stored for each target at its position. -/
theorem mem_edgeList {sysId locale : String} {targets : List String} {values : List Value} :
    values ∈ edgeList sysId locale targets ↔ ∃ position target,
      targets[position]? = some target ∧ values = edgeCells sysId locale position target := by
  unfold edgeList
  rw [List.mem_map]
  constructor
  · rintro ⟨⟨target, position⟩, hx, rfl⟩
    exact ⟨position, target, List.mem_zipIdx_iff_getElem?.1 hx, rfl⟩
  · rintro ⟨position, target, hx, rfl⟩
    exact ⟨(target, position), List.mem_zipIdx_iff_getElem?.2 hx, rfl⟩

section
variable {m : Mapping} {e : Entry}

/-- An element of an array of links becomes the edge of its target. -/
theorem edgeRow_eq_ok {sysId fieldId locale : String} {position : Nat} {item : Json}
    {values : List Value} (h : edgeRow sysId fieldId locale position item = .ok values) :
    ∃ target, linkId? item = some target ∧ values = edgeCells sysId locale position target := by
  unfold edgeRow at h
  split at h
  · cases h
  · next target htarget =>
    cases h
    exact ⟨target, htarget, rfl⟩

/-- The elements of an array of links become the edges of their targets, in order. -/
theorem mapM_edgeRow {sysId fieldId locale : String} :
    ∀ {items : List Json} {first : Nat} {rows : List (List Value)},
      (items.zipIdx first).mapM (fun (item, position) =>
        edgeRow sysId fieldId locale position item) = .ok rows →
      rows = ((items.filterMap linkId?).zipIdx first).map fun (target, position) =>
        edgeCells sysId locale position target
  | [], first, rows, h => (pure_eq_ok.1 h).symm
  | item :: items, first, rows, h => by
    rw [List.zipIdx_cons, List.mapM_cons] at h
    obtain ⟨values, hvalues, h⟩ := bind_eq_ok.1 h
    obtain ⟨rest, hrest, h⟩ := bind_eq_ok.1 h
    obtain ⟨target, htarget, rfl⟩ := edgeRow_eq_ok hvalues
    rw [← pure_eq_ok.1 h, List.filterMap_cons_some htarget, List.zipIdx_cons, List.map_cons,
      mapM_edgeRow hrest]

/-- The edges of an array of links in one locale are those of its targets. -/
theorem edgeRows_eq {fieldId locale : String} {rows : List (List Value)}
    (h : m.edgeRows e fieldId locale = .ok rows) :
    rows = edgeList e.sys.id locale (m.targets e fieldId locale) := by
  unfold edgeRows at h
  unfold targets
  split at h
  · next hnone =>
    cases h
    rw [hnone]
    rfl
  · next hnull =>
    cases h
    rw [hnull]
    rfl
  · next items hitems =>
    rw [hitems]
    exact mapM_edgeRow h
  · cases h

/-- The edges of an array of links are those of its targets in each locale in which it is stored. -/
theorem edgeSet_eq {locales : List String} {l : LinkTable} {set : EdgeSet}
    (h : m.edgeSet e locales l = .ok set) :
    set.linkTable = l.name ∧ set.fieldId = l.fieldId ∧
      set.rows = (if l.localized then locales else [m.default]).flatMap fun locale =>
        edgeList e.sys.id locale (m.targets e l.fieldId locale) := by
  obtain ⟨rowss, hrowss, h⟩ := bind_eq_ok.1 h
  obtain rfl := pure_eq_ok.1 h
  refine ⟨rfl, rfl, ?_⟩
  have hlists := map_eq_of_mapM hrowss
    (g := id) (k := fun locale => edgeList e.sys.id locale (m.targets e l.fieldId locale))
    fun locale rows hrows => edgeRows_eq hrows
  rw [List.map_id] at hlists
  rw [List.flatMap_def, ← hlists]

end

end Mapping

/-! ## Numbered records -/

/-- A record has a row in the default locale, and its edges are numbered from zero in each of some of
its locales. -/
structure RecordRows.Numbered (default : String) (r : RecordRows) : Prop where
  default_mem : default ∈ r.locales
  edges : ∀ set ∈ r.edges, ∃ lists : List (String × List String),
    (∀ list ∈ lists, list.1 ∈ r.locales) ∧
    set.rows = lists.flatMap fun list => Mapping.edgeList r.sysId list.1 list.2

namespace RecordRows.Numbered

variable {default : String} {r : RecordRows} {set : EdgeSet} {row : Row}

/-- Each edge of a record has a target and stands in one of the locales of the record. -/
theorem edgeTo (h : r.Numbered default) (hset : set ∈ r.edges)
    (hrow : row ∈ set.rows.map (Row.ofCells LinkTable.columns)) :
    ∃ locale ∈ r.locales, ∃ position target, EdgeTo r.sysId locale position target row := by
  obtain ⟨values, hv, rfl⟩ := List.mem_map.1 hrow
  obtain ⟨lists, hlocales, hrows⟩ := h.edges set hset
  rw [hrows] at hv
  obtain ⟨list, hlist, hv⟩ := List.mem_flatMap.1 hv
  obtain ⟨position, target, -, rfl⟩ := Mapping.mem_edgeList.1 hv
  exact ⟨list.1, hlocales list hlist, position, target, Mapping.edgeTo_edgeCells ..⟩

/-- Before each edge of a record stand edges at all smaller positions. -/
theorem dense (h : r.Numbered default) (hset : set ∈ r.edges)
    (hrow : row ∈ set.rows.map (Row.ofCells LinkTable.columns)) {sysId locale target : String}
    {position : Nat} (hedge : EdgeTo sysId locale position target row) {p : Nat} (hp : p < position) :
    ∃ row' ∈ set.rows.map (Row.ofCells LinkTable.columns), ∃ target',
      EdgeTo sysId locale p target' row' := by
  obtain ⟨values, hv, rfl⟩ := List.mem_map.1 hrow
  obtain ⟨lists, -, hrows⟩ := h.edges set hset
  rw [hrows] at hv
  obtain ⟨list, hlist, hv⟩ := List.mem_flatMap.1 hv
  obtain ⟨position', target', hget, rfl⟩ := Mapping.mem_edgeList.1 hv
  obtain ⟨rfl, rfl, rfl, rfl⟩ := hedge.unique (Mapping.edgeTo_edgeCells ..)
  have hlength : p < list.2.length :=
    Nat.lt_trans hp (List.getElem?_eq_some_iff.1 hget).1
  refine ⟨_, List.mem_map_of_mem (hrows ▸ List.mem_flatMap.2 ⟨list, hlist,
    Mapping.mem_edgeList.2 ⟨p, list.2[p], List.getElem?_eq_getElem hlength, rfl⟩⟩), list.2[p], ?_⟩
  exact Mapping.edgeTo_edgeCells ..

end RecordRows.Numbered

namespace Mapping

variable {m : Mapping}

/-- An asset has a row in the default locale, and no edges. -/
theorem numbered_assetRows (hdefault : m.default ∈ m.space.localeCodes) (a : Asset) :
    (m.assetRows a).Numbered m.default :=
  ⟨default_mem_rowLocales _ hdefault, nofun⟩

/-- An entry has a row in the default locale, and its edges are numbered. -/
theorem numbered_entryRows (hdefault : m.default ∈ m.space.localeCodes) {e : Entry} {r : RecordRows}
    (h : m.entryRows e = .ok r) : r.Numbered m.default := by
  obtain ⟨t, rows, edges, -, -, hedges, rfl⟩ := entryRows_eq_ok.1 h
  refine ⟨default_mem_rowLocales _ hdefault, fun set hset => ?_⟩
  obtain ⟨l, -, hl⟩ := exists_of_mapM hedges hset
  obtain ⟨-, -, hrows⟩ := edgeSet_eq hl
  refine ⟨(m.edgeLocales t e l.localized).map fun locale =>
    (locale, m.targets e l.fieldId locale), fun list hlist => ?_, ?_⟩
  · obtain ⟨locale, hlocale, rfl⟩ := List.mem_map.1 hlist
    exact edgeLocales_subset hdefault e l.localized hlocale
  · rw [hrows, List.flatMap_map]
    rfl

end Mapping

end ContentReplica
