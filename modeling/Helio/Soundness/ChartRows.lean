import Helio.Soundness.ChartSegments
import Mathlib.Tactic.Linarith

/-! # The rows of the chart

Each row shows of every series the last point that its segment has at the row's time, and nothing else; the
labels lie between the segments, so a line of the chart breaks exactly where the samples do.
-/

namespace Helio.Web.Chart

open History

def ChartRows.rowAt (rows : ChartRows) (t : ℚ) : ChartRow := (rows.find? t).getD {}

/-- What a series shows at a time: the last point of its segment there. -/
def seriesAt (shown : ChartPoint → ℚ) (segments : List (List ChartPoint)) (index : ℕ) (t : ℚ) : Option (ℚ × ℤ) :=
  ((segments.getD index []).filter fun point => shown point = t).getLast?.map fun point => (point.powerW, point.atMs)

def Gap.middle (gap : Gap) : Option ℚ := do
  let start ← gap.start
  let stop ← gap.stop
  some ((start + stop) / 2)

section Columns

variable {series : ℕ → Series} {shown : ChartPoint → ℚ} {rows : ChartRows} {t : ℚ}

theorem rowAt_add (at_ : ℚ) (column : Series) (powerW : ℚ) (sourceAt : ℤ) :
    (rows.add at_ column powerW sourceAt).rowAt t =
      if t = at_ then
        { rows.rowAt t with columns := Function.update (rows.rowAt t).columns column (some (powerW, sourceAt)) }
      else rows.rowAt t := by
  unfold ChartRows.rowAt ChartRows.add
  rw [Table.find?_upsert]
  split
  · next same => rw [same, Option.getD_some]
  · rfl

theorem isSome_add (at_ : ℚ) (column : Series) (powerW : ℚ) (sourceAt : ℤ) :
    ((rows.add at_ column powerW sourceAt).find? t).isSome = true ↔ (rows.find? t).isSome = true ∨ t = at_ := by
  unfold ChartRows.add
  rw [Table.find?_upsert]
  split <;> simp_all

/-- The points of one segment, entered one after the other. -/
def addPoints (column : Series) (shown : ChartPoint → ℚ) (rows : ChartRows) (segment : List ChartPoint) : ChartRows :=
  segment.foldl (fun rows point => rows.add (shown point) column point.powerW point.atMs) rows

theorem addPoints_concat (column : Series) (segment : List ChartPoint) (point : ChartPoint) :
    addPoints column shown rows (segment ++ [point]) =
      (addPoints column shown rows segment).add (shown point) column point.powerW point.atMs := by
  simp [addPoints]

theorem addPoints_columns (column other : Series) (segment : List ChartPoint) :
    ((addPoints column shown rows segment).rowAt t).columns other =
      if other = column then (seriesAt shown [segment] 0 t).or ((rows.rowAt t).columns other)
      else (rows.rowAt t).columns other := by
  induction segment using List.reverseRecOn with
  | nil => simp [addPoints, seriesAt]
  | append_singleton segment point ih =>
    rw [addPoints_concat, rowAt_add]
    simp only [seriesAt, List.getD_cons_zero, List.filter_append] at ih ⊢
    by_cases here : t = shown point
    · have found : List.filter (fun point => decide (shown point = t)) [point] = [point] := by simp [here]
      rw [if_pos here, found, List.getLast?_concat]
      by_cases same : other = column
      · simp [same]
      · simpa [same] using ih
    · have skipped : List.filter (fun point => decide (shown point = t)) [point] = [] := by simp [Ne.symm here]
      rw [if_neg here, skipped, List.append_nil, ih]

theorem addPoints_label (column : Series) (segment : List ChartPoint) :
    ((addPoints column shown rows segment).rowAt t).gapLabel = (rows.rowAt t).gapLabel := by
  induction segment using List.reverseRecOn with
  | nil => rfl
  | append_singleton segment point ih =>
    rw [addPoints_concat, rowAt_add, ← ih]
    split <;> rfl

theorem addPoints_isSome (column : Series) (segment : List ChartPoint) :
    ((addPoints column shown rows segment).find? t).isSome = true ↔
      (rows.find? t).isSome = true ∨ ∃ point ∈ segment, shown point = t := by
  induction segment using List.reverseRecOn with
  | nil => simp [addPoints]
  | append_singleton segment point ih =>
    rw [addPoints_concat, isSome_add, ih]
    simp only [List.mem_append, List.mem_singleton, or_and_right, exists_or, exists_eq_left, or_assoc,
      @eq_comm _ t]

/-- Entering segments from a number on. -/
def addFrom (series : ℕ → Series) (shown : ChartPoint → ℚ) (k : ℕ) (segments : List (List ChartPoint))
    (rows : ChartRows) : ChartRows :=
  (segments.zipIdx k).foldl (fun rows (segment, index) => addPoints (series index) shown rows segment) rows

theorem addSegments_eq (segments : List (List ChartPoint)) :
    rows.addSegments series shown segments = addFrom series shown 0 segments rows := rfl

theorem addFrom_cons (k : ℕ) (segment : List ChartPoint) (rest : List (List ChartPoint)) :
    addFrom series shown k (segment :: rest) rows =
      addFrom series shown (k + 1) rest (addPoints (series k) shown rows segment) := rfl

theorem addFrom_other {k : ℕ} {segments : List (List ChartPoint)} {other : Series}
    (differs : ∀ i, k ≤ i → other ≠ series i) :
    ((addFrom series shown k segments rows).rowAt t).columns other = (rows.rowAt t).columns other := by
  induction segments generalizing k rows with
  | nil => rfl
  | cons segment rest ih =>
    have later : ∀ i, k + 1 ≤ i → other ≠ series i := fun i above => differs i (Nat.le_of_succ_le above)
    rw [addFrom_cons, ih later, addPoints_columns, if_neg (differs k le_rfl)]

theorem addFrom_label {k : ℕ} {segments : List (List ChartPoint)} :
    ((addFrom series shown k segments rows).rowAt t).gapLabel = (rows.rowAt t).gapLabel := by
  induction segments generalizing k rows with
  | nil => rfl
  | cons segment rest ih => rw [addFrom_cons, ih, addPoints_label]

theorem addFrom_isSome {k : ℕ} {segments : List (List ChartPoint)} :
    ((addFrom series shown k segments rows).find? t).isSome = true ↔
      (rows.find? t).isSome = true ∨ ∃ point ∈ segments.flatten, shown point = t := by
  induction segments generalizing k rows with
  | nil => simp [addFrom]
  | cons segment rest ih =>
    rw [addFrom_cons, ih, addPoints_isSome]
    simp only [List.flatten_cons, List.mem_append, or_and_right, exists_or, or_assoc]

/-- A series shows the points of its own segment. -/
theorem addFrom_columns (injective : Function.Injective series) {k j : ℕ} {segments : List (List ChartPoint)}
    (clear : (rows.rowAt t).columns (series j) = none) (low : k ≤ j) :
    ((addFrom series shown k segments rows).rowAt t).columns (series j) = seriesAt shown segments (j - k) t := by
  induction segments generalizing k rows with
  | nil => simpa [addFrom, seriesAt] using clear
  | cons segment rest ih =>
    rw [addFrom_cons]
    rcases low.eq_or_lt with rfl | above
    · have others : ∀ i, k + 1 ≤ i → series k ≠ series i := fun i later same => by
        have := injective same
        omega
      rw [addFrom_other others, addPoints_columns, if_pos rfl, clear, Option.or_none, Nat.sub_self]
      rfl
    · have differs : series j ≠ series k := fun same => above.ne' (injective same)
      have untouched : ((addPoints (series k) shown rows segment).rowAt t).columns (series j) = none := by
        rw [addPoints_columns, if_neg differs, clear]
      rw [ih untouched above, show j - k = j - (k + 1) + 1 by omega]
      rfl

end Columns

section Labels

variable {rows : ChartRows} {t : ℚ}

theorem label_columns (gap : Gap) : ((rows.label gap).rowAt t).columns = (rows.rowAt t).columns := by
  unfold ChartRows.label
  split
  · unfold ChartRows.rowAt
    rw [Table.find?_upsert]
    split
    · next same => rw [same, Option.getD_some]
    · rfl
  · rfl

theorem label_gapLabel (gap : Gap) : ((rows.label gap).rowAt t).gapLabel =
    if gap.middle = some t then some "Sem dados" else (rows.rowAt t).gapLabel := by
  unfold ChartRows.label Gap.middle
  split
  · next start stop opens closes =>
    unfold ChartRows.rowAt
    rw [Table.find?_upsert, opens, closes]
    simp only [Option.bind_eq_bind, Option.bind_some, Option.some.injEq]
    split
    · next same => rw [if_pos same.symm, Option.getD_some]
    · next differs => rw [if_neg (Ne.symm differs)]
  · next missing =>
    rw [if_neg]
    intro found
    obtain ⟨start, opens, rest⟩ := Option.bind_eq_some_iff.mp found
    obtain ⟨stop, closes, -⟩ := Option.bind_eq_some_iff.mp rest
    exact missing start stop opens closes

theorem label_isSome (gap : Gap) : ((rows.label gap).find? t).isSome = true ↔
    (rows.find? t).isSome = true ∨ gap.middle = some t := by
  unfold ChartRows.label Gap.middle
  split
  · next start stop opens closes =>
    rw [Table.find?_upsert, opens, closes]
    simp only [Option.bind_eq_bind, Option.bind_some, Option.some.injEq]
    split
    · next same => simp [same]
    · next differs => simp [Ne.symm differs]
  · next missing =>
    refine ⟨Or.inl, ?_⟩
    rintro (present | found)
    · exact present
    · obtain ⟨start, opens, rest⟩ := Option.bind_eq_some_iff.mp found
      obtain ⟨stop, closes, -⟩ := Option.bind_eq_some_iff.mp rest
      exact (missing start stop opens closes).elim

variable {gaps : List Gap}

theorem labels_columns : ((gaps.foldl ChartRows.label rows).rowAt t).columns = (rows.rowAt t).columns := by
  induction gaps generalizing rows with
  | nil => rfl
  | cons gap rest ih => rw [List.foldl_cons, ih, label_columns]

theorem labels_isSome : ((gaps.foldl ChartRows.label rows).find? t).isSome = true ↔
    (rows.find? t).isSome = true ∨ ∃ gap ∈ gaps, gap.middle = some t := by
  induction gaps generalizing rows with
  | nil => simp
  | cons gap rest ih => simp only [List.foldl_cons, ih, label_isSome, List.exists_mem_cons_iff, or_assoc]

theorem labels_gapLabel : ((gaps.foldl ChartRows.label rows).rowAt t).gapLabel =
    if ∃ gap ∈ gaps, gap.middle = some t then some "Sem dados" else (rows.rowAt t).gapLabel := by
  induction gaps generalizing rows with
  | nil => simp
  | cons gap rest ih =>
    rw [List.foldl_cons, ih, label_gapLabel]
    simp only [List.exists_mem_cons_iff]
    by_cases later : ∃ gap ∈ rest, gap.middle = some t
    · rw [if_pos later, if_pos (Or.inr later)]
    · rw [if_neg later]
      simp only [later, or_false]

end Labels

section Rows

variable (current : HistoryView) (previous : Option HistoryView) (range : ChartRange)

/-- The rows show the series and the labels of the views, and nothing else. -/
structure Drawn (current : HistoryView) (previous : Option HistoryView) (range : ChartRange)
    (rows : List (ℚ × ChartRow)) : Prop where
  ordered : rows.Pairwise fun left right => left.1 < right.1
  times : ∀ t, (∃ row, (t, row) ∈ rows) ↔ (∃ point ∈ current.segments.flatten, (point.atMs : ℚ) = t) ∨
    (∃ gap ∈ current.gaps, gap.middle = some t) ∨
      ∃ view ∈ previous, ∃ point ∈ view.segments.flatten, range.shown point.atMs = t
  currentColumns : ∀ t row, (t, row) ∈ rows → ∀ i,
    row.columns (.current i) = seriesAt (fun point => point.atMs) current.segments i t
  previousColumns : ∀ t row, (t, row) ∈ rows → ∀ i, row.columns (.previous i) =
    previous.bind fun view => seriesAt (fun point => range.shown point.atMs) view.segments i t
  label : ∀ t row, (t, row) ∈ rows →
    row.gapLabel = if ∃ gap ∈ current.gaps, gap.middle = some t then some "Sem dados" else none

/-- The rows of the view that is shown now, with its labels. -/
def labelledRows : ChartRows :=
  current.gaps.foldl ChartRows.label (ChartRows.addSegments .current (fun point => point.atMs) current.segments Table.empty)

variable {current previous range} {t : ℚ}

theorem labelledRows_current (i : ℕ) : ((labelledRows current).rowAt t).columns (.current i) =
    seriesAt (fun point => point.atMs) current.segments i t := by
  have injective : Function.Injective Series.current := fun _ _ => Series.current.inj
  rw [labelledRows, labels_columns, addSegments_eq, addFrom_columns injective rfl (Nat.zero_le i), Nat.sub_zero]

theorem labelledRows_previous (i : ℕ) : ((labelledRows current).rowAt t).columns (.previous i) = none := by
  rw [labelledRows, labels_columns, addSegments_eq, addFrom_other fun _ _ => Series.noConfusion]
  rfl

theorem labelledRows_label : ((labelledRows current).rowAt t).gapLabel =
    if ∃ gap ∈ current.gaps, gap.middle = some t then some "Sem dados" else none := by
  rw [labelledRows, labels_gapLabel, addSegments_eq, addFrom_label]
  rfl

theorem labelledRows_isSome : ((labelledRows current).find? t).isSome = true ↔
    (∃ point ∈ current.segments.flatten, (point.atMs : ℚ) = t) ∨ ∃ gap ∈ current.gaps, gap.middle = some t := by
  rw [labelledRows, labels_isSome, addSegments_eq, addFrom_isSome]
  simp

theorem chartRows_none : chartRows current none range = labelledRows current := rfl

theorem chartRows_some (view : HistoryView) : chartRows current (some view) range =
    addFrom .previous (fun point => range.shown point.atMs) 0 view.segments (labelledRows current) := rfl

theorem chartRows_current (i : ℕ) : ((chartRows current previous range).rowAt t).columns (.current i) =
    seriesAt (fun point => point.atMs) current.segments i t := by
  cases previous with
  | none => exact labelledRows_current i
  | some view => rw [chartRows_some, addFrom_other fun _ _ => Series.noConfusion, labelledRows_current]

theorem chartRows_previous (i : ℕ) : ((chartRows current previous range).rowAt t).columns (.previous i) =
    previous.bind fun view => seriesAt (fun point => range.shown point.atMs) view.segments i t := by
  cases previous with
  | none => exact labelledRows_previous i
  | some view =>
    have injective : Function.Injective Series.previous := fun _ _ => Series.previous.inj
    rw [chartRows_some, addFrom_columns injective (labelledRows_previous i) (Nat.zero_le i)]
    rfl

theorem chartRows_label : ((chartRows current previous range).rowAt t).gapLabel =
    if ∃ gap ∈ current.gaps, gap.middle = some t then some "Sem dados" else none := by
  cases previous with
  | none => exact labelledRows_label
  | some view => rw [chartRows_some, addFrom_label, labelledRows_label]

theorem chartRows_isSome : ((chartRows current previous range).find? t).isSome = true ↔
    (∃ point ∈ current.segments.flatten, (point.atMs : ℚ) = t) ∨ (∃ gap ∈ current.gaps, gap.middle = some t) ∨
      ∃ view ∈ previous, ∃ point ∈ view.segments.flatten, range.shown point.atMs = t := by
  cases previous with
  | none => simpa [chartRows_none] using labelledRows_isSome
  | some view => simp [chartRows_some, addFrom_isSome, labelledRows_isSome, or_assoc]

theorem mem_buildChartRows {row : ChartRow} :
    (t, row) ∈ buildChartRows current previous range ↔ (chartRows current previous range).find? t = some row := by
  rw [buildChartRows, List.mem_insertionSort, Table.find?_eq_some_iff]

theorem buildChartRows_ordered :
    (buildChartRows current previous range).Pairwise fun left right => left.1 < right.1 := by
  have trans : IsTrans (ℚ × ChartRow) fun left right => left.1 ≤ right.1 := ⟨fun _ _ _ => le_trans⟩
  have total : Std.Total fun (left right : ℚ × ChartRow) => left.1 ≤ right.1 := ⟨fun _ _ => le_total _ _⟩
  have sorted : (buildChartRows current previous range).Pairwise fun left right => left.1 ≤ right.1 :=
    List.pairwise_insertionSort _ _
  have distinct : (buildChartRows current previous range).Pairwise fun left right => left.1 ≠ right.1 := by
    apply List.pairwise_map.mp
    exact ((List.perm_insertionSort _ _).map Prod.fst).nodup_iff.mpr (chartRows current previous range).unique
  exact sorted.imp₂ (fun _ _ => lt_of_le_of_ne) distinct

theorem chart_rows : Drawn current previous range (buildChartRows current previous range) where
  ordered := buildChartRows_ordered
  times t := by
    simp only [mem_buildChartRows, ← Option.isSome_iff_exists]
    exact chartRows_isSome
  currentColumns t row member i := by
    rw [← chartRows_current i, ChartRows.rowAt, mem_buildChartRows.mp member]
    rfl
  previousColumns t row member i := by
    rw [← chartRows_previous i, ChartRows.rowAt, mem_buildChartRows.mp member]
    rfl
  label t row member := by
    rw [← chartRows_label, ChartRows.rowAt, mem_buildChartRows.mp member]
    rfl

end Rows

section Breaks

variable {segments : List (List ChartPoint)} {t : ℚ}

/-- A label stands in the middle between the last point of a segment and the first point of the next. -/
structure Labels (segments : List (List ChartPoint)) (k : ℕ) (t : ℚ) : Prop where
  between : ∃ left right last first, segments[k]? = some left ∧ segments[k + 1]? = some right ∧
    last ∈ left.getLast? ∧ first ∈ right.head? ∧ ((last.atMs + first.atMs : ℚ)) / 2 = t

theorem middle_iff : (∃ gap ∈ gapsOf segments, gap.middle = some t) ↔ ∃ k, Labels segments k t := by
  constructor
  · rintro ⟨gap, member, middle⟩
    obtain ⟨⟨left, right⟩, pair, rfl⟩ := List.mem_map.mp member
    obtain ⟨k, found⟩ := List.mem_iff_getElem?.mp pair
    obtain ⟨here, next⟩ := List.getElem?_zip_eq_some.mp found
    rw [List.getElem?_tail] at next
    obtain ⟨start, opens, rest⟩ := Option.bind_eq_some_iff.mp middle
    obtain ⟨stop, closes, same⟩ := Option.bind_eq_some_iff.mp rest
    obtain ⟨last, ends, rfl⟩ := Option.map_eq_some_iff.mp opens
    obtain ⟨first, starts, rfl⟩ := Option.map_eq_some_iff.mp closes
    exact ⟨k, ⟨left, right, last, first, here, next, ends, starts, Option.some.inj same⟩⟩
  · rintro ⟨k, left, right, last, first, here, next, ends, starts, rfl⟩
    have pair : (left, right) ∈ segments.zip segments.tail := by
      apply List.mem_iff_getElem?.mpr
      exact ⟨k, List.getElem?_zip_eq_some.mpr ⟨here, by rw [List.getElem?_tail, next]⟩⟩
    refine ⟨_, List.mem_map_of_mem pair, ?_⟩
    simp only [Gap.middle, Option.mem_def.mp ends, Option.mem_def.mp starts]
    rfl

/-- The points of the segments up to a label lie before it, the others after it. -/
theorem points_beside {resolution : HistoryResolution} {points : List ChartPoint} (cut : IsCut resolution points segments)
    (sorted : points.Pairwise fun left right => left.atMs ≤ right.atMs) {k i : ℕ} (label : Labels segments k t)
    {segment : List ChartPoint} (found : segments[i]? = some segment) {point : ChartPoint} (member : point ∈ segment) :
    (i ≤ k → (point.atMs : ℚ) < t) ∧ (k < i → t < (point.atMs : ℚ)) := by
  obtain ⟨left, right, last, first, here, next, ends, starts, rfl⟩ := label
  rw [← cut.joins, List.pairwise_flatten] at sorted
  obtain ⟨inside, across⟩ := sorted
  obtain ⟨kInside, rfl⟩ := List.getElem?_eq_some_iff.mp here
  obtain ⟨nextInside, rfl⟩ := List.getElem?_eq_some_iff.mp next
  obtain ⟨iInside, rfl⟩ := List.getElem?_eq_some_iff.mp found
  rw [List.pairwise_iff_getElem] at across
  have order : last.atMs < first.atMs := by
    obtain ⟨other, ends', another, starts', far⟩ := (List.isChain_iff_getElem.mp cut.apart) k nextInside
    obtain rfl := Option.some.inj (ends.symm.trans ends')
    obtain rfl := Option.some.inj (starts.symm.trans starts')
    have := maximumChartGap_pos resolution last first
    omega
  have lastIn := List.mem_of_mem_getLast? ends
  have firstIn := List.mem_of_mem_head? starts
  constructor
  · intro low
    have before : point.atMs ≤ last.atMs := by
      rcases low.eq_or_lt with rfl | earlier
      · have refl : Std.Refl fun (left right : ChartPoint) => left.atMs ≤ right.atMs := ⟨fun _ => le_rfl⟩
        have := (inside _ (List.getElem_mem iInside)).rel_getLast member
        rwa [List.getLast_of_mem_getLast? ends] at this
      · exact across i k iInside kInside earlier point member last lastIn
    have : point.atMs + point.atMs < last.atMs + first.atMs := by omega
    have : (point.atMs + point.atMs : ℚ) < last.atMs + first.atMs := by exact_mod_cast this
    linarith
  · intro high
    have after : first.atMs ≤ point.atMs := by
      rcases (Nat.succ_le_of_lt high).eq_or_lt with rfl | later
      · have refl : Std.Refl fun (left right : ChartPoint) => left.atMs ≤ right.atMs := ⟨fun _ => le_rfl⟩
        have := (inside _ (List.getElem_mem iInside)).rel_head member
        rwa [List.head_of_mem_head? starts] at this
      · exact across (k + 1) i nextInside iInside later first firstIn point member
    have : last.atMs + first.atMs < point.atMs + point.atMs := by omega
    have : (last.atMs + first.atMs : ℚ) < point.atMs + point.atMs := by exact_mod_cast this
    linarith

/-- Between two points of the chart stands a label exactly if they are of different segments, and the row of a
label shows none of the series of now. -/
structure BreaksAtGaps (segments : List (List ChartPoint)) (rows : List (ℚ × ChartRow)) : Prop where
  breaks : ∀ (i j : ℕ) left right (first last : ChartPoint), i ≤ j → segments[i]? = some left → segments[j]? = some right →
    first ∈ left → last ∈ right →
      ((∃ t row, (t, row) ∈ rows ∧ first.atMs < t ∧ t < last.atMs ∧ row.gapLabel ≠ none) ↔ i < j)
  bare : ∀ t row, (t, row) ∈ rows → row.gapLabel ≠ none → ∀ i, row.columns (.current i) = none

theorem exists_label {resolution : HistoryResolution} {points : List ChartPoint} (cut : IsCut resolution points segments)
    {k : ℕ} (later : k + 1 < segments.length) : ∃ t, Labels segments k t := by
  obtain ⟨last, ends, first, starts, -⟩ := (List.isChain_iff_getElem.mp cut.apart) k later
  exact ⟨_, _, _, last, first, List.getElem?_eq_getElem (by omega), List.getElem?_eq_getElem later, ends, starts, rfl⟩

theorem seriesAt_none {shown : ChartPoint → ℚ} {index : ℕ}
    (absent : ∀ segment, segments[index]? = some segment → ∀ point ∈ segment, shown point ≠ t) :
    seriesAt shown segments index t = none := by
  have empty : ((segments.getD index []).filter fun point => shown point = t) = [] := by
    apply List.filter_eq_nil_iff.mpr
    intro point member
    rw [List.getD_eq_getElem?_getD] at member
    cases found : segments[index]? with
    | none => simp [found] at member
    | some segment => simpa using absent segment found point (by simpa [found] using member)
  rw [seriesAt, empty]
  rfl

variable (points : List HistoryPoint) (resolution : HistoryResolution) (window : Option SummaryWindow)
  (previous : Option HistoryView) (range : ChartRange)

theorem breaks_at_gaps : BreaksAtGaps (buildHistoryView points resolution window).segments
    (buildChartRows (buildHistoryView points resolution window) previous range) := by
  have cut := view_cut points resolution window
  have sorted := chartPoints_sorted points resolution window
  have drawn : Drawn (buildHistoryView points resolution window) previous range _ := chart_rows
  have labelled : ∀ t row, (t, row) ∈ buildChartRows (buildHistoryView points resolution window) previous range →
      (row.gapLabel ≠ none ↔ ∃ k, Labels (buildHistoryView points resolution window).segments k t) := by
    intro t row member
    rw [drawn.label t row member, ← middle_iff]
    change _ ↔ ∃ gap ∈ (buildHistoryView points resolution window).gaps, gap.middle = some t
    split <;> simp_all
  constructor
  · intro i j left right first last order here there firstIn lastIn
    constructor
    · rintro ⟨t, row, member, after, before, label⟩
      obtain ⟨k, stands⟩ := (labelled t row member).mp label
      by_contra same
      rcases le_or_gt j k with low | high
      · exact absurd ((points_beside cut sorted stands there lastIn).1 low) before.not_gt
      · exact absurd ((points_beside cut sorted stands here firstIn).2 (by omega)) after.not_gt
    · intro apart
      have inside : j < (buildHistoryView points resolution window).segments.length :=
        (List.getElem?_eq_some_iff.mp there).1
      obtain ⟨t, stands⟩ := exists_label (k := i) cut (by omega)
      obtain ⟨row, member⟩ := (drawn.times t).mpr (Or.inr (Or.inl (middle_iff.mpr ⟨i, stands⟩)))
      exact ⟨t, row, member, (points_beside cut sorted stands here firstIn).1 le_rfl,
        (points_beside cut sorted stands there lastIn).2 apart, (labelled t row member).mpr ⟨i, stands⟩⟩
  · intro t row member label i
    obtain ⟨k, stands⟩ := (labelled t row member).mp label
    rw [drawn.currentColumns t row member i]
    apply seriesAt_none
    intro segment found point inside same
    obtain ⟨before, after⟩ := points_beside cut sorted stands found inside
    rcases le_or_gt i k with low | high
    · exact (before low).ne same
    · exact (after high).ne' same

end Breaks

end Helio.Web.Chart
