import SwmSdk.FieldLines

/-! # Named lines that may be absent

A text of lines `name:value`, in which the line of an empty value is left out.  A value may hold
colons, and may look like another line; but it holds no line feed, and the names hold neither.  So
the first line tells its name, and with it which lines before it are absent: the values are
determined (`lines_injective`).
-/
namespace OptionalLines
variable {α : Type*}

/-- The two characters that structure a text. -/
structure Marks (α : Type*) where
  colon : α
  lineFeed : α

namespace Marks

/-- The colon that ends the name of a line. -/
def colonSeparator (m : Marks α) : FieldLines.Separator α := ⟨m.colon, [], List.not_mem_nil⟩

/-- The line feed between two lines. -/
def lineSeparator (m : Marks α) : FieldLines.Separator α := ⟨m.lineFeed, [], List.not_mem_nil⟩

/-- The lines of the fields that have a value. -/
def lines (m : Marks α) : List (List α × List α) → List α
  | [] => []
  | (name, value) :: fields =>
      if value = [] then m.lines fields
      else name ++ m.colon :: (value ++ m.lineFeed :: m.lines fields)

variable (m : Marks α)

theorem lines_absent (name : List α) (fields : List (List α × List α)) :
    m.lines ((name, []) :: fields) = m.lines fields := by
  rw [lines, if_pos rfl]

theorem lines_present (name : List α) {value : List α} (hvalue : value ≠ [])
    (fields : List (List α × List α)) :
    m.lines ((name, value) :: fields) =
      name ++ m.colon :: (value ++ m.lineFeed :: m.lines fields) := by
  rw [lines, if_neg hvalue]

/-- The text begins with the name of one of the fields. -/
theorem lines_begin {fields : List (List α × List α)} (h : m.lines fields ≠ []) :
    ∃ field ∈ fields, ∃ rest, m.lines fields = field.1 ++ m.colon :: rest := by
  induction fields with
  | nil => exact absurd rfl h
  | cons field fields ih =>
    obtain ⟨name, value⟩ := field
    by_cases hvalue : value = []
    · subst hvalue
      rw [lines_absent] at h ⊢
      obtain ⟨field, hfield, hrest⟩ := ih h
      exact ⟨field, List.mem_cons_of_mem _ hfield, hrest⟩
    · exact ⟨_, List.mem_cons_self .., _, m.lines_present name hvalue fields⟩

/-- Two texts that begin with a name and a colon begin with one name. -/
theorem name_unique {name name' rest rest' : List α} (h : m.colon ∉ name) (h' : m.colon ∉ name')
    (htext : name ++ m.colon :: rest = name' ++ m.colon :: rest') : name = name' ∧ rest = rest' :=
  m.colonSeparator.split_first (m.colonSeparator.not_infix_of_head h)
    (m.colonSeparator.not_infix_of_head h') htext

theorem line_unique {line line' rest rest' : List α} (h : m.lineFeed ∉ line)
    (h' : m.lineFeed ∉ line')
    (htext : line ++ m.lineFeed :: rest = line' ++ m.lineFeed :: rest') :
    line = line' ∧ rest = rest' :=
  m.lineSeparator.split_first (m.lineSeparator.not_infix_of_head h)
    (m.lineSeparator.not_infix_of_head h') htext

/-- A line of another name is no line of the fields. -/
theorem lines_ne_present {name value rest : List α} {fields : List (List α × List α)}
    (hname : m.colon ∉ name) (hnames : ∀ field ∈ fields, m.colon ∉ field.1)
    (hother : name ∉ fields.map Prod.fst) :
    m.lines fields ≠ name ++ m.colon :: (value ++ m.lineFeed :: rest) := by
  intro h
  have hne : m.lines fields ≠ [] := by
    rw [h]
    simp
  obtain ⟨field, hfield, rest', hbegin⟩ := m.lines_begin hne
  rw [h] at hbegin
  obtain ⟨rfl, -⟩ := m.name_unique hname (hnames field hfield) hbegin
  exact hother (List.mem_map_of_mem hfield)

/-- **The lines tell the values.** -/
theorem lines_injective {names : List (List α)} (hnames : ∀ name ∈ names, m.colon ∉ name)
    (hdistinct : names.Nodup) {values values' : List (List α)}
    (hlength : values.length = names.length) (hlength' : values'.length = names.length)
    (h : ∀ value ∈ values, m.lineFeed ∉ value) (h' : ∀ value ∈ values', m.lineFeed ∉ value)
    (htext : m.lines (names.zip values) = m.lines (names.zip values')) : values = values' := by
  induction names generalizing values values' with
  | nil =>
    rw [List.length_eq_zero_iff.mp hlength, List.length_eq_zero_iff.mp hlength']
  | cons name names ih =>
    obtain ⟨value, values, rfl⟩ := List.exists_cons_of_length_eq_add_one hlength
    obtain ⟨value', values', rfl⟩ := List.exists_cons_of_length_eq_add_one hlength'
    obtain ⟨hother, hdistinct⟩ := List.nodup_cons.mp hdistinct
    obtain ⟨hname, hnames⟩ := List.forall_mem_cons.mp hnames
    obtain ⟨hvalue, h⟩ := List.forall_mem_cons.mp h
    obtain ⟨hvalue', h'⟩ := List.forall_mem_cons.mp h'
    have hrest := ih hnames hdistinct (Nat.succ_inj.mp hlength) (Nat.succ_inj.mp hlength') h h'
    -- no line of the later names is the line of this one
    have hlater : ∀ (later : List (List α)) (value rest : List α),
        m.lines (names.zip later) ≠ name ++ m.colon :: (value ++ m.lineFeed :: rest) := by
      intro later value rest
      refine m.lines_ne_present hname (fun field hfield => ?_) fun hmem => ?_
      · exact hnames _ (List.of_mem_zip hfield).1
      · obtain ⟨field, hfield, hfst⟩ := List.mem_map.mp hmem
        exact hother (hfst ▸ (List.of_mem_zip hfield).1)
    rw [List.zip_cons_cons, List.zip_cons_cons] at htext
    by_cases habsent : value = []
    · by_cases habsent' : value' = []
      · subst habsent habsent'
        rw [lines_absent, lines_absent] at htext
        rw [hrest htext]
      · subst habsent
        rw [lines_absent, lines_present _ _ habsent'] at htext
        exact absurd htext (hlater _ _ _)
    · by_cases habsent' : value' = []
      · subst habsent'
        rw [lines_absent, lines_present _ _ habsent] at htext
        exact absurd htext.symm (hlater _ _ _)
      · rw [lines_present _ _ habsent, lines_present _ _ habsent'] at htext
        obtain ⟨-, hvalues⟩ := m.name_unique hname hname htext
        obtain ⟨rfl, hlines⟩ := m.line_unique hvalue hvalue' hvalues
        rw [hrest hlines]

end Marks
end OptionalLines
