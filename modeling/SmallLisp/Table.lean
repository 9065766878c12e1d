/-!
# `SmallLisp.Table`: entries in the order of their keys

A table is a list of keys with their values, no key twice. A key keeps the place where it was first
put.
-/

namespace SmallLisp.Table

variable {κ α : Type} [BEq κ]

/-- The table with `key` mapped to `value`: at its place, or at the end if it is new. -/
def put (key : κ) (value : α) : List (κ × α) → List (κ × α)
  | [] => [(key, value)]
  | (other, old) :: rest =>
    if other == key then (other, value) :: rest else (other, old) :: put key value rest

/-- The table of a list of entries: a repeated key has its first place and its last value. -/
def ofEntries (entries : List (κ × α)) : List (κ × α) :=
  entries.foldl (fun table (key, value) => put key value table) []

/-- A key has the value that was put last, and any other key keeps its own. -/
theorem lookup_put [LawfulBEq κ] (key other : κ) (value : α) (table : List (κ × α)) :
    (put key value table).lookup other =
      if other == key then some value else table.lookup other := by
  induction table with
  | nil => by_cases h : other == key <;> simp [put, List.lookup_cons, h]
  | cons entry rest ih =>
    obtain ⟨first, old⟩ := entry
    by_cases hf : first = key
    · by_cases h : other = key <;> simp [put, List.lookup_cons, hf, h, beq_eq_false_iff_ne.2]
    · by_cases ho : other = first
      · simp [put, hf, ho]
      · have : (other == first) = false := beq_eq_false_iff_ne.2 ho
        simp [put, List.lookup_cons, hf, this, ih]

/-- The values after a put are those before it and the one that is put. -/
theorem forall_put (p : α → Prop) {key : κ} {value : α} {table : List (κ × α)} (hv : p value)
    (ht : ∀ entry ∈ table, p entry.2) : ∀ entry ∈ put key value table, p entry.2 := by
  induction table with
  | nil => simpa [put] using hv
  | cons entry rest ih =>
    obtain ⟨first, old⟩ := entry
    have hrest : ∀ entry ∈ rest, p entry.2 := fun e he => ht e (List.mem_cons_of_mem _ he)
    unfold put
    split
    · exact List.forall_mem_cons.2 ⟨hv, hrest⟩
    · exact List.forall_mem_cons.2 ⟨ht (first, old) List.mem_cons_self, ih hrest⟩

/-- A key that is there keeps its place, and a new one comes last. -/
theorem keys_put [LawfulBEq κ] (key : κ) (value : α) (table : List (κ × α)) :
    (put key value table).map (·.1) =
      if (table.lookup key).isSome then table.map (·.1) else table.map (·.1) ++ [key] := by
  induction table with
  | nil => simp [put]
  | cons entry rest ih =>
    obtain ⟨first, old⟩ := entry
    by_cases h : first = key
    · subst h
      simp [put]
    · have hne : (key == first) = false := beq_eq_false_iff_ne.2 fun e => h e.symm
      simp only [put, List.lookup_cons, hne, beq_iff_eq, h, if_false, List.map_cons, ih]
      split <;> simp

/-- A new key comes last, with its value. -/
theorem put_of_not_mem [LawfulBEq κ] {key : κ} {table : List (κ × α)} (h : key ∉ table.map (·.1))
    (value : α) : put key value table = table ++ [(key, value)] := by
  induction table with
  | nil => rfl
  | cons entry rest ih =>
    obtain ⟨first, old⟩ := entry
    rw [List.map_cons, List.mem_cons, not_or] at h
    have hne : (first == key) = false := beq_eq_false_iff_ne.2 fun e => h.1 e.symm
    rw [put, hne, if_neg Bool.false_ne_true, ih h.2, List.cons_append]

/-- Entries of which no two have the same key are a table. -/
theorem ofEntries_of_nodup [LawfulBEq κ] {entries : List (κ × α)} (h : (entries.map (·.1)).Nodup) :
    ofEntries entries = entries := by
  suffices hafter : ∀ table : List (κ × α), ((table ++ entries).map (·.1)).Nodup →
      entries.foldl (fun table (key, value) => put key value table) table = table ++ entries from
    hafter [] h
  clear h
  induction entries with
  | nil => exact fun table _ => (List.append_nil table).symm
  | cons entry rest ih =>
    intro table h
    obtain ⟨key, value⟩ := entry
    have hnew : key ∉ table.map (·.1) := by
      rw [List.map_append, List.map_cons, List.nodup_append] at h
      exact fun hmem => h.2.2 _ hmem _ List.mem_cons_self rfl
    have hlater : table ++ (key, value) :: rest = table ++ [(key, value)] ++ rest := by simp
    rw [hlater] at h ⊢
    show rest.foldl _ (put key value table) = _
    rw [put_of_not_mem hnew, ih _ h]

end SmallLisp.Table
