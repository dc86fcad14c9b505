import Mathlib.Data.List.SplitBy
import NesMachine.Proofs.Memory.Rows

/-!
# `NesMachine/Proofs/Memory/Collapse.lean` — the dump of the whole memory loses nothing

The lines of the dump come from one pass over the rows, and what the pass remembers is whether the last
row was blank. That it writes one line for a run of blank rows is therefore a statement about rows that
are cut into runs: the runs change between blank and not blank (`Alternates`), so the pass enters each
of them with the right memory.

What is left out can be put back. Rows that are shown say where they are, so the length of a run is
the way from where the reader is to the next address that is shown, or to the end. The reader's place
when a run begins is what the induction has to be general in (`expand_collapse`), because the pass is
some rows into the run by the time it meets the next one that it shows.
-/

set_option autoImplicit false

namespace NesMachine

open Text

namespace Memory

/-! ## Runs -/

/-- Holds of two rows that are both blank or both not. -/
def Row.isLike (row next : Row) : Bool := row.isBlank == next.isBlank

/-- The rows cut where a blank row and one that is not blank meet. -/
def runs (rows : List Row) : List (List Row) := rows.splitBy Row.isLike

/-- The lines of a run. -/
def runLines (run : List Row) : List String :=
  if run.all Row.isBlank then ["*"] else run.map Row.text

/-- Every second run is blank, and the first is if `blank` says so. -/
def Alternates : Bool → List (List Row) → Prop
  | _, [] => True
  | blank, run :: rest =>
    run ≠ [] ∧ (∀ row ∈ run, row.isBlank = blank) ∧ Alternates (!blank) rest

theorem isBlank_of_isChain {first : Row} {run : List Row}
    (h : (first :: run).IsChain fun row next => row.isLike next) :
    ∀ row ∈ first :: run, row.isBlank = first.isBlank := by
  induction run generalizing first with
  | nil => exact List.forall_mem_singleton.mpr rfl
  | cons next run ih =>
    obtain ⟨hnext, hrun⟩ := List.isChain_cons_cons.mp h
    rw [eq_of_beq hnext]
    exact List.forall_mem_cons.mpr ⟨eq_of_beq hnext, ih hrun⟩

/-- A run is as blank as any of its rows. -/
theorem isBlank_of_mem_run {run : List Row} {blank : Bool}
    (h : run.IsChain fun row next => row.isLike next) (hany : ∃ row ∈ run, row.isBlank = blank) :
    ∀ row ∈ run, row.isBlank = blank := by
  cases run with
  | nil => exact fun _ hmem => absurd hmem List.not_mem_nil
  | cons first run =>
    obtain ⟨row, hrow, rfl⟩ := hany
    rw [isBlank_of_isChain h row hrow]
    exact isBlank_of_isChain h

theorem alternates_of_isChain {parts : List (List Row)} {blank : Bool}
    (hsame : ∀ run ∈ parts, run.IsChain fun row next => row.isLike next)
    (hchange : parts.IsChain fun run next =>
      ∃ hrun hnext, (run.getLast hrun).isLike (next.head hnext) = false)
    (hfirst : ∀ run ∈ parts.head?, ∃ row ∈ run, row.isBlank = blank) :
    Alternates blank parts := by
  induction parts generalizing blank with
  | nil => trivial
  | cons run rest ih =>
    obtain ⟨hrun, hrest⟩ := List.forall_mem_cons.mp hsame
    have hany : ∃ row ∈ run, row.isBlank = blank := hfirst run rfl
    have hall := isBlank_of_mem_run hrun hany
    obtain ⟨row, hrow, -⟩ := hany
    refine ⟨List.ne_nil_of_mem hrow, hall, ih hrest hchange.tail fun next hnext => ?_⟩
    obtain ⟨hlast, hhead, hdiffer⟩ := (List.isChain_cons.mp hchange).1 next hnext
    refine ⟨next.head hhead, List.head_mem hhead, ?_⟩
    rw [Row.isLike, hall _ (List.getLast_mem hlast), beq_eq_false_iff_ne] at hdiffer
    exact Bool.eq_not.mpr hdiffer.symm

theorem alternates_runs (rows : List Row) : ∃ blank, Alternates blank (runs rows) := by
  obtain ⟨-, hne, hsame, hchange⟩ := List.splitBy_eq_iff.mp (Eq.refl (runs rows))
  cases hruns : runs rows with
  | nil => exact ⟨true, trivial⟩
  | cons run rest =>
    rw [hruns] at hne hsame hchange
    have hrun : run ≠ [] := fun h => hne (h ▸ List.mem_cons_self)
    refine ⟨(run.head hrun).isBlank, alternates_of_isChain hsame hchange ?_⟩
    rintro _ ⟨⟩
    exact ⟨_, List.head_mem hrun, rfl⟩

/-! ## One line for a run -/

section

variable {row : Row} (rest : List Row)

theorem collapse_true_cons (h : row.isBlank = true) :
    collapse true (row :: rest) = collapse true rest := by
  rw [collapse, if_pos h, if_pos rfl]

theorem collapse_false_cons (h : row.isBlank = true) :
    collapse false (row :: rest) = .blank :: collapse true rest := by
  rw [collapse, if_pos h, if_neg Bool.false_ne_true]

/-- A row that is not blank is shown wherever it stands. -/
theorem collapse_cons_of_not_blank (h : row.isBlank = false) (inRun : Bool) :
    collapse inRun (row :: rest) = .row row :: collapse false rest := by
  rw [collapse, if_neg (ne_true_of_eq_false h)]

theorem collapse_append_of_blank {run : List Row} (h : ∀ row ∈ run, row.isBlank = true) :
    collapse true (run ++ rest) = collapse true rest := by
  induction run with
  | nil => rfl
  | cons row run ih =>
    obtain ⟨hrow, hrun⟩ := List.forall_mem_cons.mp h
    rw [List.cons_append, collapse_true_cons _ hrow, ih hrun]

theorem collapse_append_of_not_blank {run : List Row} (h : ∀ row ∈ run, row.isBlank = false) :
    collapse false (run ++ rest) = run.map .row ++ collapse false rest := by
  induction run with
  | nil => rfl
  | cons row run ih =>
    obtain ⟨hrow, hrun⟩ := List.forall_mem_cons.mp h
    rw [List.cons_append, collapse_cons_of_not_blank _ hrow, ih hrun]
    rfl

end

theorem collapse_runs {parts : List (List Row)} {blank inRun : Bool} (h : Alternates blank parts)
    (hrun : inRun = true → blank = false) :
    (collapse inRun parts.flatten).map DumpLine.text = parts.flatMap runLines := by
  induction parts generalizing blank inRun with
  | nil => rfl
  | cons run rest ih =>
    obtain ⟨hne, hall, hrest⟩ := h
    obtain ⟨row, run, rfl⟩ := List.exists_cons_of_ne_nil hne
    obtain ⟨hrow, htail⟩ := List.forall_mem_cons.mp hall
    rw [List.flatten_cons, List.flatMap_cons, List.cons_append]
    cases blank with
    | true =>
      have hlines : runLines (row :: run) = ["*"] := if_pos (List.all_eq_true.mpr hall)
      have hout : inRun = false := by
        cases inRun with
        | false => rfl
        | true => cases hrun rfl
      rw [hlines, hout, collapse_false_cons _ hrow, collapse_append_of_blank _ htail, List.map_cons,
        ih hrest fun _ => rfl]
      rfl
    | false =>
      have hlines : runLines (row :: run) = (row :: run).map Row.text := by
        refine if_neg fun hblank => ?_
        rw [List.all_eq_true.mp hblank row List.mem_cons_self] at hrow
        cases hrow
      rw [hlines, collapse_cons_of_not_blank _ hrow, collapse_append_of_not_blank _ htail,
        List.map_cons, List.map_append, List.map_map,
        ih hrest fun hfalse => absurd hfalse Bool.false_ne_true]
      rfl

/-- **A run of blank rows is one line**, and every other row is one by itself. -/
theorem collapse_eq_runLines (rows : List Row) :
    (collapse false rows).map DumpLine.text = (runs rows).flatMap runLines := by
  obtain ⟨blank, halternates⟩ := alternates_runs rows
  have hflatten : (runs rows).flatten = rows := List.flatten_splitBy _ _
  rw [← collapse_runs halternates fun h => absurd h Bool.false_ne_true, hflatten]

theorem head?_collapse_true (rows : List Row) : (collapse true rows).head? ≠ some .blank := by
  induction rows with
  | nil => rintro ⟨⟩
  | cons row rest ih =>
    cases hblank : row.isBlank with
    | true => rwa [collapse_true_cons _ hblank]
    | false =>
      rw [collapse_cons_of_not_blank _ hblank]
      rintro ⟨⟩

theorem isChain_collapse (inRun : Bool) (rows : List Row) :
    (collapse inRun rows).IsChain fun line next => ¬ (line = .blank ∧ next = .blank) := by
  induction rows generalizing inRun with
  | nil => exact List.isChain_nil
  | cons row rest ih =>
    cases hblank : row.isBlank with
    | true =>
      cases inRun with
      | true =>
        rw [collapse_true_cons _ hblank]
        exact ih true
      | false =>
        rw [collapse_false_cons _ hblank]
        refine List.isChain_cons.mpr ⟨fun next hnext => ?_, ih true⟩
        rintro ⟨-, rfl⟩
        exact head?_collapse_true rest hnext
    | false =>
      rw [collapse_cons_of_not_blank _ hblank]
      refine List.isChain_cons.mpr ⟨fun next _ => ?_, ih false⟩
      rintro ⟨⟨⟩, -⟩

/-- The rows that are shown are the ones that are not blank, in order. -/
theorem filter_collapse (inRun : Bool) (rows : List Row) :
    (collapse inRun rows).filter (· ≠ .blank)
      = (rows.filter fun row => !row.isBlank).map DumpLine.row := by
  induction rows generalizing inRun with
  | nil => rfl
  | cons row rest ih =>
    cases hblank : row.isBlank with
    | true =>
      cases inRun with
      | true => rw [collapse_true_cons _ hblank, ih, List.filter_cons_of_neg (by simp [hblank])]
      | false =>
        rw [collapse_false_cons _ hblank, List.filter_cons_of_neg (by simp), ih,
          List.filter_cons_of_neg (by simp [hblank])]
    | false =>
      rw [collapse_cons_of_not_blank _ hblank, List.filter_cons_of_pos (by simp), ih,
        List.filter_cons_of_pos (by simp [hblank]), List.map_cons]

theorem mem_rows_of_mem_collapse {row : Row} {inRun : Bool} {rows : List Row}
    (h : .row row ∈ collapse inRun rows) : row ∈ rows := by
  have hshown : DumpLine.row row ∈ (collapse inRun rows).filter (· ≠ .blank) :=
    List.mem_filter.mpr ⟨h, rfl⟩
  rw [filter_collapse] at hshown
  obtain ⟨other, hother, ⟨⟩⟩ := List.mem_map.mp hshown
  exact (List.mem_filter.mp hother).1

/-! ## The rows that are left out -/

/-- The address that the lines go on at, or the end of the memory. -/
def nextAddress : List DumpLine → Nat
  | .row shown :: _ => shown.address
  | _ => Ram.size

/-- The bytes that are shown by the lines from an address on. A blank line stands for zeros up to the
address of the next row that is shown. -/
def expand : Nat → List DumpLine → List UInt8
  | _, [] => []
  | _, .row shown :: rest => shown.bytes ++ expand (shown.address + shown.bytes.length) rest
  | start, .blank :: rest =>
    List.replicate (nextAddress rest - start) 0 ++ expand (nextAddress rest) rest

theorem bytes_of_isBlank {row : Row} (h : row.isBlank = true) :
    row.bytes = List.replicate row.bytes.length 0 :=
  List.eq_replicate_of_mem fun byte hbyte => eq_of_beq (List.all_eq_true.mp h byte hbyte)

/-- **What the pass leaves out is put back.** In a run that began at `first`, the rows that were passed
since then are put back with the ones that follow. -/
theorem expand_collapse {start : Nat} {bytes : List UInt8} (hend : start + bytes.length = Ram.size)
    (hfull : 16 ∣ bytes.length) :
    expand start (collapse false (rows start bytes)) = bytes ∧
    ∀ first ≤ start, expand first (.blank :: collapse true (rows start bytes))
      = List.replicate (start - first) 0 ++ bytes := by
  fun_induction rows start bytes with
  | case1 start =>
    have hstart : start = Ram.size := hend
    refine ⟨rfl, fun first _ => ?_⟩
    rw [hstart]
    rfl
  | case2 start byte bytes ih =>
    have hlong : 16 ≤ (byte :: bytes).length := Nat.le_of_dvd (Nat.succ_pos _) hfull
    generalize byte :: bytes = all at *
    obtain ⟨hshown, hpassed⟩ := ih (by rw [List.length_drop, Row.width]; omega)
      (by rw [List.length_drop]; exact Nat.dvd_sub hfull (Nat.dvd_refl 16))
    have hlength : (all.take Row.width).length = Row.width := List.length_take_of_le hlong
    have hall : all.take Row.width ++ all.drop Row.width = all := List.take_append_drop _ _
    cases hblank : Row.isBlank ⟨start, all.take Row.width⟩ with
    | true =>
      have hzeros : all.take Row.width = List.replicate Row.width 0 :=
        (bytes_of_isBlank hblank).trans (congrArg (List.replicate · 0) hlength)
      rw [collapse_false_cons _ hblank, collapse_true_cons _ hblank]
      constructor
      · rw [hpassed start (Nat.le_add_right _ _), Nat.add_sub_cancel_left, ← hzeros, hall]
      · intro first hfirst
        rw [hpassed first (Nat.le_add_right_of_le hfirst), Nat.sub_add_comm hfirst,
          List.replicate_add, ← hzeros, List.append_assoc, hall]
    | false =>
      have hrow : expand start (.row ⟨start, all.take Row.width⟩
          :: collapse false (rows (start + Row.width) (all.drop Row.width))) = all := by
        rw [expand, hlength, hshown, hall]
      rw [collapse_cons_of_not_blank _ hblank, collapse_cons_of_not_blank _ hblank]
      exact ⟨hrow, fun first _ => congrArg _ hrow⟩

/-! ## The lines of the dump -/

/-- The line of a dump that is written so. -/
def readDumpLine (line : String) : Option DumpLine :=
  if line = "*" then some .blank else .row <$> readRow line

/-- The cells of the whole memory, read from the lines after the first. -/
def readDump (text : String) : Option (List UInt8) := do
  let shown ← (lines text).tail.mapM readDumpLine
  return expand 0 shown

theorem Row.text_ne_star (row : Row) : row.text ≠ "*" := by
  intro h
  have hchars := congrArg String.toList h
  simp [text] at hchars

theorem DumpLine.text_eq_star_iff {line : DumpLine} : line.text = "*" ↔ line = .blank := by
  cases line with
  | blank => exact ⟨fun _ => rfl, fun _ => rfl⟩
  | row shown => exact ⟨fun h => absurd h shown.text_ne_star, fun h => by cases h⟩

theorem filter_text_collapse (inRun : Bool) (rows : List Row) :
    ((collapse inRun rows).map DumpLine.text).filter (· ≠ "*")
      = (rows.filter fun row => !row.isBlank).map Row.text := by
  have hshown := congrArg (List.map DumpLine.text) (filter_collapse inRun rows)
  rw [List.map_map] at hshown
  rw [List.filter_map]
  refine Eq.trans (congrArg _ (List.filter_congr fun line _ => ?_)) hshown
  exact decide_eq_decide.mpr (not_congr DumpLine.text_eq_star_iff)

section

variable {inRun : Bool} {start : Nat} {bytes : List UInt8} {line : DumpLine}

theorem readDumpLine_text (hend : start + bytes.length ≤ 65536)
    (h : line ∈ collapse inRun (rows start bytes)) : readDumpLine line.text = some line := by
  cases line with
  | blank => rfl
  | row shown =>
    have hread := readRow_of_mem_rows hend (mem_rows_of_mem_collapse h)
    rw [DumpLine.text, readDumpLine, if_neg shown.text_ne_star, hread]
    rfl

theorem newline_notMem_dumpLine (hend : start + bytes.length ≤ 65536)
    (h : line ∈ collapse inRun (rows start bytes)) : '\n' ∉ line.text.toList := by
  cases line with
  | blank => decide
  | row shown => exact newline_notMem_of_mem_rows hend (mem_rows_of_mem_collapse h)

end

section

variable (ram : Ram)

/-- The rows of the whole memory. -/
def dumpRows : List Row := (List.range 4096).map fun k => ⟨16 * k, ram.cellsFrom (16 * k) 16⟩

theorem rows_eq_dumpRows : rows 0 (ram.readBlock 0 Ram.size) = dumpRows ram := by
  have hread : ram.readBlock 0 Ram.size = ram.cellsFrom 0 Ram.size :=
    ram.readBlock_eq_cellsFrom 0 Ram.size
  rw [hread, rows_eq, Ram.length_cellsFrom, dumpRows]
  refine List.map_congr_left fun k hk => ?_
  have hfull : min 16 (Ram.size - 16 * k) = 16 := by
    have hlt : k < 4096 := List.mem_range.mp hk
    rw [Ram.size]
    omega
  rw [Ram.take_drop_cellsFrom, hfull, Nat.zero_add]

theorem lines_render : lines (render (on ram))
    = "Memory: 65536 bytes" :: (collapse false (dumpRows ram)).map DumpLine.text := by
  rw [← rows_eq_dumpRows]
  refine lines_intercalate (List.cons_ne_nil _ _) (List.forall_mem_cons.mpr ⟨by decide, ?_⟩)
  refine List.forall_mem_map.mpr fun line hline => newline_notMem_dumpLine ?_ hline
  rw [Ram.length_readBlock]
  exact Nat.le_refl _

theorem readDump_render : readDump (render (on ram)) = some (ram.cellsFrom 0 Ram.size) := by
  have hlength : 0 + (ram.readBlock 0 Ram.size).length = Ram.size := by
    rw [Ram.length_readBlock, Nat.zero_add]
  have hread : ((collapse false (dumpRows ram)).map DumpLine.text).mapM readDumpLine
      = some (collapse false (dumpRows ram)) := by
    rw [← rows_eq_dumpRows]
    exact mapM_map_eq_some fun line hline => readDumpLine_text (Nat.le_of_eq hlength) hline
  have hexpand : expand 0 (collapse false (dumpRows ram)) = ram.readBlock 0 Ram.size := by
    rw [← rows_eq_dumpRows]
    exact (expand_collapse hlength (by rw [Ram.length_readBlock]; decide)).1
  rw [readDump, lines_render, List.tail_cons, hread, Option.bind_eq_bind, Option.bind_some, hexpand]
  exact congrArg some (ram.readBlock_eq_cellsFrom 0 Ram.size)

end

/-- All cells are all there is. -/
theorem cellsFrom_injective {ram ram' : Ram}
    (h : ram.cellsFrom 0 Ram.size = ram'.cellsFrom 0 Ram.size) : ram = ram' := by
  rw [Ram.cellsFrom, Ram.cellsFrom, List.map_inj_left] at h
  refine Ram.ext fun address => ?_
  have hlt : address.toNat < Ram.size := address.toNat_lt
  have hcell := h address.toNat (List.mem_range.mpr hlt)
  rwa [Nat.zero_add, UInt16.ofNat_toNat] at hcell

/-- **The dump of the whole memory loses nothing.** After the line with the size come the runs of rows
in order: every row of a run that is not blank is a line with its address, and a blank run is one `*`,
so that there are never two of them together. If a `*` is taken for rows of zeros up to the next
address or the end, the lines are read as all the cells, and so two memories look the same only if
they are. -/
theorem render_losesNothing :
    (∀ ram : Ram,
      lines (render (on ram))
        = "Memory: 65536 bytes" :: (runs (dumpRows ram)).flatMap runLines ∧
      (lines (render (on ram))).tail.filter (· ≠ "*")
        = ((dumpRows ram).filter fun row => !row.isBlank).map Row.text ∧
      (lines (render (on ram))).IsChain (fun line next => ¬ (line = "*" ∧ next = "*")) ∧
      readDump (render (on ram)) = some (ram.cellsFrom 0 Ram.size)) ∧
    ∀ ram ram' : Ram, render (on ram) = render (on ram') ↔ ram = ram' := by
  refine ⟨fun ram => ⟨?_, ?_, ?_, readDump_render ram⟩,
    fun ram ram' => ⟨fun h => ?_, congrArg fun ram => render (on ram)⟩⟩
  · rw [lines_render, collapse_eq_runLines]
  · rw [lines_render, List.tail_cons, filter_text_collapse]
  · rw [lines_render]
    refine List.isChain_cons.mpr ⟨fun next _ => ?_, ?_⟩
    · rintro ⟨htitle, -⟩
      exact absurd htitle (by decide)
    · refine (List.isChain_map _).mpr ((isChain_collapse false _).imp fun line next hline => ?_)
      rintro ⟨htext, htext'⟩
      exact hline ⟨DumpLine.text_eq_star_iff.mp htext, DumpLine.text_eq_star_iff.mp htext'⟩
  · have hread := readDump_render ram
    rw [h, readDump_render ram'] at hread
    exact (cellsFrom_injective (Option.some.inj hread)).symm

end Memory

end NesMachine
