import Mathlib.Data.List.Nodup
import Mathlib.Tactic.Common

/-! # Maps as lists of entries

A map is a list that is looked up, and what makes an insertion one is that it overwrites the
value of its key and no other (`Overwrites`), wherever it puts the entry.  Entries of different
keys that are put one after another are then all in the map (`lookup_putAll`).

Two maps that are filled from one list, the one under the names of its members and the other
under a normal form of them, have the same entries exactly if the members agree one by one
(`same_putAll_iff`).
-/
namespace KeyedMap
variable {α κ β : Type*} [DecidableEq κ]

/-- An insertion overwrites the value of its key. -/
def Overwrites (put : κ → β → List (κ × β) → List (κ × β)) : Prop :=
  ∀ k v map key, (put k v map).lookup key = if key = k then some v else map.lookup key

/-- The two maps have the same entries. -/
def Same (first second : List (κ × β)) : Prop := ∀ key, first.lookup key = second.lookup key

theorem same_iff {first second : List (κ × β)} :
    Same first second ↔ ∀ key v, first.lookup key = some v ↔ second.lookup key = some v := by
  constructor
  · intro h key v
    rw [h key]
  · intro h key
    exact Option.ext (h key)

theorem lookup_entry (k : κ) (v : β) (map : List (κ × β)) (key : κ) :
    ((k, v) :: map).lookup key = if key = k then some v else map.lookup key := by
  rw [List.lookup_cons]
  cases hkey : key == k with
  | true => rw [if_pos (beq_iff_eq.mp hkey)]
  | false => rw [if_neg (beq_eq_false_iff_ne.mp hkey)]

/-- The entry at the front gives way to one of its own key. -/
theorem lookup_replaced (k : κ) (v w : β) (map : List (κ × β)) (key : κ) :
    ((k, v) :: map).lookup key = if key = k then some v else ((k, w) :: map).lookup key := by
  rw [lookup_entry, lookup_entry]
  split <;> rfl

/-- What overwrites a key behind an entry of another overwrites it in the whole map. -/
theorem lookup_passed {k p : κ} (hne : k ≠ p) {v : β} {map map' : List (κ × β)} {key : κ}
    (h : map'.lookup key = if key = k then some v else map.lookup key) (w : β) :
    ((p, w) :: map').lookup key = if key = k then some v else ((p, w) :: map).lookup key := by
  rw [lookup_entry, h, lookup_entry]
  by_cases hkey : key = k
  · rw [if_pos hkey, if_pos hkey, if_neg (hkey ▸ hne)]
  · rw [if_neg hkey, if_neg hkey]

/-- The entries are put into the map one after another. -/
def putAll (put : κ → β → List (κ × β) → List (κ × β)) :
    List (κ × β) → List (κ × β) → List (κ × β)
  | [], map => map
  | (k, v) :: rest, map => putAll put rest (put k v map)

variable {put put' : κ → β → List (κ × β) → List (κ × β)}

/-- A key is looked up among the entries, or else in the map they were put into. -/
theorem lookup_putAll_append (hput : Overwrites put) {entries : List (κ × β)}
    (hkeys : (entries.map Prod.fst).Nodup) (map : List (κ × β)) (key : κ) (v : β) :
    (putAll put entries map).lookup key = some v ↔
      (key, v) ∈ entries ∨ key ∉ entries.map Prod.fst ∧ map.lookup key = some v := by
  induction entries generalizing map with
  | nil => simp [putAll]
  | cons entry rest ih =>
    obtain ⟨k, w⟩ := entry
    rw [List.map_cons, List.nodup_cons] at hkeys
    obtain ⟨hk, hrest⟩ := hkeys
    rw [putAll, ih hrest, hput]
    by_cases hkey : key = k
    · subst hkey
      have hspare : (key, v) ∉ rest := fun hm => hk (List.mem_map.mpr ⟨_, hm, rfl⟩)
      rw [if_pos rfl, or_iff_right hspare]
      constructor
      · rintro ⟨-, hv⟩
        rw [Option.some.inj hv]
        exact .inl (List.mem_cons_self ..)
      · rintro (hm | ⟨hm, -⟩)
        · rcases List.mem_cons.mp hm with he | hm
          · exact ⟨hk, congrArg some (Prod.mk.inj he).2.symm⟩
          · exact absurd hm hspare
        · exact absurd (List.mem_cons_self ..) hm
    · rw [if_neg hkey]
      simp [hkey]

/-- The entries are what is in a map they were put into, if it was empty. -/
theorem lookup_putAll (hput : Overwrites put) {entries : List (κ × β)}
    (hkeys : (entries.map Prod.fst).Nodup) (key : κ) (v : β) :
    (putAll put entries []).lookup key = some v ↔ (key, v) ∈ entries := by
  rw [lookup_putAll_append hput hkeys]
  simp

/-! ## A map filled from a list -/

/-- The entries of the members that have a value. -/
def entriesOf (name : α → κ) (value : α → Option β) (members : List α) : List (κ × β) :=
  members.filterMap fun a => (value a).map fun v => (name a, v)

omit [DecidableEq κ] in
theorem mem_entriesOf {name : α → κ} {value : α → Option β} {members : List α} {key : κ} {v : β} :
    (key, v) ∈ entriesOf name value members ↔ ∃ a ∈ members, value a = some v ∧ name a = key := by
  rw [entriesOf, List.mem_filterMap]
  refine exists_congr fun a => and_congr_right fun _ => ?_
  rw [Option.map_eq_some_iff]
  constructor
  · rintro ⟨w, hw, he⟩
    obtain ⟨rfl, rfl⟩ := Prod.mk.inj he
    exact ⟨hw, rfl⟩
  · rintro ⟨hv, rfl⟩
    exact ⟨v, hv, rfl⟩

omit [DecidableEq κ] in
theorem nodup_entriesOf {name : α → κ} {members : List α} (h : (members.map name).Nodup)
    (value : α → Option β) : ((entriesOf name value members).map Prod.fst).Nodup := by
  have hsublist : ((entriesOf name value members).map Prod.fst).Sublist (members.map name) := by
    clear h
    induction members with
    | nil => exact .slnil
    | cons a rest ih =>
      rw [entriesOf, List.filterMap_cons]
      cases value a with
      | none => exact ih.cons _
      | some v => exact ih.cons_cons _
  exact hsublist.nodup h

/-- **Two maps filled from one list**, under the names of its members and under a normal form of
them, have the same entries exactly if the members have the same values, and those that have one
are named in the normal form. -/
theorem same_putAll_iff (hput : Overwrites put) (hput' : Overwrites put') {name : α → κ}
    {norm : κ → κ} (hnorm : ∀ k, norm (norm k) = norm k) {members : List α}
    (hnames : (members.map fun a => norm (name a)).Nodup) (value value' : α → Option β) :
    Same (putAll put (entriesOf name value members) [])
        (putAll put' (entriesOf (fun a => norm (name a)) value' members) []) ↔
      ∀ a ∈ members, value a = value' a ∧ (value a ≠ none → norm (name a) = name a) := by
  have hraw : (members.map name).Nodup := by
    have hmap : members.map (fun a => norm (name a)) = (members.map name).map norm := by
      rw [List.map_map]
      rfl
    rw [hmap] at hnames
    exact hnames.of_map _
  have hinj : ∀ a ∈ members, ∀ b ∈ members, norm (name a) = norm (name b) → a = b :=
    fun a ha b hb h => List.inj_on_of_nodup_map hnames ha hb h
  rw [same_iff]
  simp only [lookup_putAll hput (nodup_entriesOf hraw value),
    lookup_putAll hput' (nodup_entriesOf hnames value'), mem_entriesOf]
  constructor
  · intro h a ha
    -- the member that has the same entry in the other map is this one
    have hforward : ∀ v, value a = some v → value' a = some v ∧ norm (name a) = name a := by
      intro v hv
      obtain ⟨b, hb, hbv, hname⟩ := (h (name a) v).mp ⟨a, ha, hv, rfl⟩
      obtain rfl := hinj b hb a ha (by rw [← hname, hnorm])
      exact ⟨hbv, hname⟩
    have hback : ∀ v, value' a = some v → value a = some v := by
      intro v hv
      obtain ⟨b, hb, hbv, hname⟩ := (h (norm (name a)) v).mpr ⟨a, ha, hv, rfl⟩
      obtain rfl := hinj b hb a ha (by rw [hname, hnorm])
      exact hbv
    refine ⟨Option.ext fun v => ⟨fun hv => (hforward v hv).1, hback v⟩, fun hne => ?_⟩
    obtain ⟨v, hv⟩ := Option.ne_none_iff_exists'.mp hne
    exact (hforward v hv).2
  · intro h key v
    constructor
    · rintro ⟨a, ha, hv, rfl⟩
      obtain ⟨hsame, hnamed⟩ := h a ha
      exact ⟨a, ha, hsame ▸ hv, hnamed (by rw [hv]; exact Option.some_ne_none v)⟩
    · rintro ⟨a, ha, hv, rfl⟩
      obtain ⟨hsame, hnamed⟩ := h a ha
      rw [← hsame] at hv
      exact ⟨a, ha, hv, (hnamed (by rw [hv]; exact Option.some_ne_none v)).symm⟩

end KeyedMap
