import ContentReplica.Proofs.Query.Answers
import ContentReplica.Proofs.Query.Values
import ContentReplica.Proofs.Replication.Edges

/-!
# The links that a query shows

The edges of a record are read in one locale and sorted by their positions. Sorted by a number that
tells its elements apart, a list is the only sorted one of its permutations
(`insertionSort_eq_of_perm`). So the targets of the edges come back as the payload lists them, whatever
the order of their rows in the link table (`Namespace.targets_edgesOf`).
-/

namespace ContentReplica

/-! ## Sorting by a number -/

section
variable {α : Type} {lt : α → α → Bool} {key : α → Int}

/-- Sorting finds the permutation that ascends strictly. -/
theorem insertionSort_eq_of_perm {xs ys : List α} (h : xs.Perm ys)
    (hlt : ∀ a ∈ ys, ∀ b ∈ ys, lt a b = decide (key a < key b))
    (hys : (ys.map key).Pairwise (· < ·)) : insertionSort lt xs = ys := by
  have hmem : ∀ a ∈ insertionSort lt xs, a ∈ ys := fun a ha =>
    h.mem_iff.1 ((insertionSort_perm lt xs).mem_iff.1 ha)
  have hxs : (insertionSort lt xs).Pairwise fun a b => key a ≤ key b := by
    refine pairwise_insertionSort (fun a b => key a ≤ key b) Int.le_trans fun a ha b hb => ?_
    rw [hlt a (h.mem_iff.1 ha) b (h.mem_iff.1 hb)]
    grind
  refine List.Perm.eq_of_pairwise (fun a b ha hb hle hge => ?_) hxs
    ((List.pairwise_map.1 hys).imp fun hless => Int.le_of_lt hless)
    ((insertionSort_perm lt xs).trans h)
  exact List.inj_on_of_nodup_map (hys.imp fun hless => Int.ne_of_lt hless) (hmem a ha) hb
    (Int.le_antisymm hle hge)

end

/-! ## Edges in their order -/

/-- The position of an edge. -/
def Row.positionOf (row : Row) : Int :=
  match row.cell Column.position with
  | .int position => position
  | _ => 0

/-- The rows of the edges to some targets. -/
def Mapping.edgesTo (sysId locale : String) (targets : List String) : List Row :=
  (edgeList sysId locale targets).map (Row.ofCells LinkTable.columns)

/-- The targets of an array of links in the first locale that has any. -/
def LocaleContext.firstTargets (lc : LocaleContext) (localized : Bool)
    (targets : String → List String) : List String :=
  (((lc.lookup localized).map targets).find? fun ts => !ts.isEmpty).getD []

/-- What counts are the targets in the locales where the field is looked up. -/
theorem LocaleContext.firstTargets_congr {lc : LocaleContext} {localized : Bool}
    {targets targets' : String → List String}
    (h : ∀ l ∈ lc.lookup localized, targets l = targets' l) :
    lc.firstTargets localized targets = lc.firstTargets localized targets' := by
  unfold firstTargets
  rw [List.map_congr_left h]

namespace Mapping

variable {sysId locale : String} {targets : List String} {row : Row}

/-- An edge to one of the targets has its place in their list. -/
theorem mem_edgesTo : row ∈ edgesTo sysId locale targets ↔ ∃ position target,
    targets[position]? = some target ∧
      row = Row.ofCells LinkTable.columns (edgeCells sysId locale position target) := by
  unfold edgesTo
  rw [List.mem_map]
  constructor
  · rintro ⟨values, hvalues, rfl⟩
    obtain ⟨position, target, htarget, rfl⟩ := mem_edgeList.1 hvalues
    exact ⟨position, target, htarget, rfl⟩
  · rintro ⟨position, target, htarget, rfl⟩
    exact ⟨_, mem_edgeList.2 ⟨position, target, htarget, rfl⟩, rfl⟩

/-- The edges to some targets are numbered in their order. -/
theorem positions_edgesTo : (edgesTo sysId locale targets).map Row.positionOf
    = (List.range' 0 targets.length).map Int.ofNat := by
  unfold edgesTo edgeList
  rw [List.map_map, List.map_map, ← List.zipIdx_map_snd 0 targets, List.map_map]
  refine List.map_congr_left fun pair _ => ?_
  unfold Function.comp Row.positionOf
  rw [(edgeTo_edgeCells sysId locale pair.2 pair.1).position]
  rfl

/-- The targets of edges are those that the edges lead to. -/
theorem targets_edgesTo :
    (edgesTo sysId locale targets).filterMap (fun row => row.text? Column.targetSysId)
      = targets := by
  unfold edgesTo edgeList
  rw [List.map_map, List.filterMap_map]
  have htarget : ∀ pair ∈ targets.zipIdx, ((fun row : Row => row.text? Column.targetSysId) ∘
      Row.ofCells LinkTable.columns ∘ fun (pair : String × Nat) =>
        edgeCells sysId locale pair.2 pair.1) pair = some pair.1 := fun pair _ =>
    Row.text?_eq_some.2 (edgeTo_edgeCells sysId locale pair.2 pair.1).targetSysId
  rw [List.filterMap_congr htarget, List.filterMap_eq_map', List.zipIdx_map_fst]

/-- Sorting the edges to some targets restores their order. -/
theorem insertionSort_edgesTo {edges : List Row} (h : edges.Perm (edgesTo sysId locale targets)) :
    insertionSort (fun a b =>
      (a.cell Column.position).compare? (b.cell Column.position) == some .lt) edges
      = edgesTo sysId locale targets := by
  -- Edges are stored by textual keys, where 10 comes before 2: only their positions tell the order.
  have hascends : ((edgesTo sysId locale targets).map Row.positionOf).Pairwise (· < ·) := by
    rw [positions_edgesTo, List.pairwise_map]
    exact List.Pairwise.imp (fun h => Int.ofNat_lt.2 h) (List.pairwise_lt_range' (s := 0))
  refine insertionSort_eq_of_perm h (fun a ha b hb => ?_) hascends
  obtain ⟨p, target, -, rfl⟩ := mem_edgesTo.1 ha
  obtain ⟨p', target', -, rfl⟩ := mem_edgesTo.1 hb
  unfold Row.positionOf
  rw [(edgeTo_edgeCells sysId locale p target).position,
    (edgeTo_edgeCells sysId locale p' target').position]
  have hcompare : (Value.int p).compare? (.int p') = some (compare (p : Int) p') := by
    rw [Value.compare?]
  rw [hcompare, Bool.eq_iff_iff, beq_iff_eq, decide_eq_true_iff, Option.some.injEq]
  exact Int.compare_eq_lt

end Mapping

/-! ## The edges of a record -/

/-- What one element of a list contributes is what it contributes alone. -/
theorem flatMap_ite_eq {α β : Type} [DecidableEq α] {xs : List α} {x : α} {f : α → List β}
    (hnodup : xs.Nodup) (hx : x ∈ xs) :
    (xs.flatMap fun y => if y = x then f y else []) = f x := by
  obtain ⟨before, after, rfl⟩ := List.append_of_mem hx
  have hnot : x ∉ before ∧ x ∉ after := by
    rw [← not_or, ← List.mem_append]
    exact (List.nodup_cons.1 (List.nodup_middle.1 hnodup)).1
  have hnil : ∀ ys : List α, x ∉ ys → (ys.flatMap fun y => if y = x then f y else []) = [] :=
    fun ys hys => List.flatMap_eq_nil_iff.2 fun y hy => if_neg fun he : y = x => hys (he ▸ hy)
  rw [List.flatMap_append, List.flatMap_cons, hnil before hnot.1, hnil after hnot.2, if_pos rfl,
    List.append_nil, List.nil_append]

namespace Namespace

variable {n : Namespace} {lc : LocaleContext} {sysId : String} {locales : List String}
  {targets : String → List String} {edges : List Row}

/-- Of the edges of a record those in one locale lead to the targets in that locale. -/
theorem filter_edges_perm (hlocales : locales.Nodup)
    (hedges : edges.Perm (locales.flatMap fun l => Mapping.edgesTo sysId l (targets l)))
    (hnone : ∀ l, l ∉ locales → targets l = []) (locale : String) :
    (edges.filter fun row => row.text? Column.locale == some locale).Perm
      (Mapping.edgesTo sysId locale (targets locale)) := by
  have hin : ∀ l, (Mapping.edgesTo sysId l (targets l)).filter
      (fun row => row.text? Column.locale == some locale)
        = if l = locale then Mapping.edgesTo sysId l (targets l) else [] := by
    intro l
    have hlocale : ∀ row ∈ Mapping.edgesTo sysId l (targets l),
        row.text? Column.locale = some l := by
      intro row hrow
      obtain ⟨p, target, -, rfl⟩ := Mapping.mem_edgesTo.1 hrow
      exact Row.text?_eq_some.2 (Mapping.edgeTo_edgeCells sysId l p target).locale
    split
    · next he => exact List.filter_eq_self.2 fun row hrow => by simp [hlocale row hrow, he]
    · next he => exact List.filter_eq_nil_iff.2 fun row hrow => by simp [hlocale row hrow, he]
  refine (hedges.filter _).trans (.of_eq ?_)
  rw [List.filter_flatMap, List.flatMap_congr fun l _ => hin l]
  by_cases hl : locale ∈ locales
  · exact flatMap_ite_eq hlocales hl
  · rw [hnone locale hl]
    exact List.flatMap_eq_nil_iff.2 fun l hmem => if_neg fun he : l = locale => hl (he ▸ hmem)

/-- The targets of the edges that are read are those of the payload, in its order. -/
theorem targets_edgesOf {link : Ident} {t : Table} (ht : n.table link = .ok t)
    (hlocales : locales.Nodup)
    (hedges : (t.rows.values.filter fun row => row.text? Column.ownerSysId == some sysId).Perm
      (locales.flatMap fun l => Mapping.edgesTo sysId l (targets l)))
    (hnone : ∀ l, l ∉ locales → targets l = []) {base : Row}
    (hbase : base.cell Column.sysId = .text sysId) (localized : Bool) :
    ∃ edges, n.edgesOf lc link localized base = .ok edges ∧
      (edges.filterMap fun row => row.text? Column.targetSysId)
        = lc.firstTargets localized targets := by
  have hin := filter_edges_perm hlocales hedges hnone
  unfold edgesOf
  rw [ht]
  dsimp only [bind, Except.bind]
  rw [Row.text?_eq_some.2 hbase]
  dsimp only
  generalize t.rows.values.filter (fun row => row.text? Column.ownerSysId == some sysId) = owned
    at hin ⊢
  -- The locale is chosen by the edges that are stored: there are some where the list has targets.
  have hany : ∀ l, owned.any (fun row => row.text? Column.locale == some l)
      = !(targets l).isEmpty := by
    intro l
    have hlength : (owned.filter fun row => row.text? Column.locale == some l).length
        = (targets l).length := by
      rw [(hin l).length_eq, Mapping.edgesTo, List.length_map, Mapping.edgeList, List.length_map,
        List.length_zipIdx]
    rw [← Bool.not_inj_iff, Bool.not_not, Bool.eq_iff_iff, List.isEmpty_iff_length_eq_zero,
      ← hlength, List.length_eq_zero_iff, List.filter_eq_nil_iff]
    simp
  have hread (l : String) : (insertionSort (fun a b =>
      (a.cell Column.position).compare? (b.cell Column.position) == some .lt)
        (owned.filter fun row => row.text? Column.locale == some l)).filterMap
          (fun row => row.text? Column.targetSysId) = targets l := by
    rw [Mapping.insertionSort_edgesTo (hin l), Mapping.targets_edgesTo]
  unfold LocaleContext.firstTargets LocaleContext.lookup
  simp only [hany]
  cases localized with
  | false =>
    refine ⟨_, rfl, (hread lc.default).trans ?_⟩
    rw [if_neg Bool.false_ne_true, List.map_singleton, List.find?_singleton]
    cases targets lc.default <;> rfl
  | true =>
    rw [if_pos rfl, if_pos rfl, List.find?_map]
    unfold Function.comp
    cases [lc.requested, lc.fallback, lc.default].find? fun l => !(targets l).isEmpty with
    | none => exact ⟨[], rfl, rfl⟩
    | some locale => exact ⟨_, rfl, hread locale⟩

end Namespace

end ContentReplica
