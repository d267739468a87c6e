import Mathlib.Data.List.Nodup

/-!
# Lists of keys with values

A key has the first value that stands with it. If all that stands with one key is taken away
or changed, then the values of the other keys stay.
-/

namespace PeerCalls.Association

variable {Key Value : Type} [DecidableEq Key] [BEq Key] [LawfulBEq Key]
  (entries : List (Key × Value)) (key other : Key)

theorem lookup_filter : (entries.filter (·.1 != key)).lookup other =
    if other = key then none else entries.lookup other := by
  induction entries with
  | nil => simp
  | cons first rest ih =>
      obtain ⟨known, value⟩ := first
      by_cases same : known = key
      · rw [List.filter_cons_of_neg (by simpa using same), ih]
        split
        next => rfl
        next differs => rw [List.lookup_cons, beq_eq_false_iff_ne.mpr (same ▸ differs)]
      · rw [List.filter_cons_of_pos (by simpa using same), List.lookup_cons, List.lookup_cons, ih]
        by_cases here : other = known
        · simp [here, same]
        · rw [beq_eq_false_iff_ne.mpr here]

theorem lookup_map (value : Value) :
    (entries.map fun (known, old) => if known = key then (known, value) else (known, old)).lookup
      other = if other = key then (entries.lookup key).map fun _ => value
        else entries.lookup other := by
  induction entries with
  | nil => simp
  | cons first rest ih =>
      obtain ⟨known, old⟩ := first
      rw [List.map_cons]
      by_cases same : known = key
      · by_cases here : other = key
        · simp [same, here]
        · simp [same, here, List.lookup_cons, ih, beq_eq_false_iff_ne.mpr here]
      · by_cases here : other = known
        · simp [here, same]
        · simp [same, List.lookup_cons, ih, beq_eq_false_iff_ne.mpr here,
            beq_eq_false_iff_ne.mpr (Ne.symm same)]

omit [DecidableEq Key] in
theorem isSome_lookup_iff {entries : List (Key × Value)} {key : Key} :
    (entries.lookup key).isSome = true ↔ ∃ value, (key, value) ∈ entries := by
  induction entries with
  | nil => simp
  | cons first rest ih => grind

end PeerCalls.Association
