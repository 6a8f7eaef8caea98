/-!
# Tables in order of insertion

A table maps keys to values and remembers the order in which the keys first came in.
Writing under a key that is present changes its value and leaves its place.

The view of a table is its list of entries; `keys_insert` and `get?_insert` say what writing
does to it.
-/

namespace ControlLogic

/-- Entries with their keys, in order of first insertion. -/
structure Table (α β : Type) where
  entries : List (α × β)

namespace Table

variable {α β γ : Type}

/-- The table without entries. -/
def empty : Table α β := ⟨[]⟩

instance : Inhabited (Table α β) := ⟨empty⟩

/-- The keys, in order. -/
def keys (t : Table α β) : List α := t.entries.map (·.1)

/-- The values, in the order of their keys. -/
def values (t : Table α β) : List β := t.entries.map (·.2)

/-- The number of entries. -/
def size (t : Table α β) : Nat := t.entries.length

/-- Whether there is no entry. -/
def isEmpty (t : Table α β) : Bool := t.entries.isEmpty

/-- Applies `f` to every value. -/
def map (f : β → γ) (t : Table α β) : Table α γ := ⟨t.entries.map fun (k, v) => (k, f v)⟩

/-- Writes `v` under `k` into a list of entries. -/
def insertEntry [DecidableEq α] (k : α) (v : β) : List (α × β) → List (α × β)
  | [] => [(k, v)]
  | e :: rest => if e.1 = k then (k, v) :: rest else e :: insertEntry k v rest

/-- Looks `k` up in a list of entries. -/
def lookup [DecidableEq α] (k : α) : List (α × β) → Option β
  | [] => none
  | e :: rest => if e.1 = k then some e.2 else lookup k rest

variable [DecidableEq α]

/-- Writes `v` under `k`. -/
def insert (t : Table α β) (k : α) (v : β) : Table α β := ⟨insertEntry k v t.entries⟩

/-- The value under `k`. -/
def get? (t : Table α β) (k : α) : Option β := lookup k t.entries

/-- Whether there is a value under `k`. -/
def contains (t : Table α β) (k : α) : Bool := (t.get? k).isSome

/-- The value under `k`, or `d`. -/
def getD (t : Table α β) (k : α) (d : β) : β := (t.get? k).getD d

/-- Changes the value under `k`, starting from `d` if there is none. -/
def alter (t : Table α β) (k : α) (d : β) (f : β → β) : Table α β :=
  t.insert k (f (t.getD k d))

/-- The table of a list of entries, later values winning. -/
def ofList (l : List (α × β)) : Table α β :=
  l.foldl (fun t e => t.insert e.1 e.2) empty

/-- Writes every entry of `u` into `t`. -/
def update (t u : Table α β) : Table α β :=
  u.entries.foldl (fun t e => t.insert e.1 e.2) t

theorem lookup_insertEntry (k j : α) (v : β) (l : List (α × β)) :
    lookup j (insertEntry k v l) = if k = j then some v else lookup j l := by
  induction l with
  | nil => rfl
  | cons e rest ih =>
    unfold insertEntry
    split
    · next h => subst h; simp only [lookup]; split <;> rfl
    · next h =>
      simp only [lookup, ih]
      by_cases hj : e.1 = j
      · have : ¬ k = j := fun hk => h (hj.trans hk.symm)
        simp [hj, this]
      · simp [hj]

/-- After writing under `k`, looking `k` up gives what was written, and every other key what
it gave before. -/
theorem get?_insert (t : Table α β) (k j : α) (v : β) :
    (t.insert k v).get? j = if k = j then some v else t.get? j :=
  lookup_insertEntry k j v t.entries

theorem isSome_lookup (k : α) (l : List (α × β)) :
    (lookup k l).isSome = true ↔ k ∈ l.map (·.1) := by
  induction l with
  | nil => simp [lookup]
  | cons e rest ih =>
    rw [lookup, List.map_cons, List.mem_cons]
    split
    · next h => simp [h]
    · next h => rw [ih, or_iff_right fun hk => h hk.symm]

/-- There is a value under exactly the keys. -/
theorem contains_iff_mem_keys (t : Table α β) (k : α) : t.contains k = true ↔ k ∈ t.keys :=
  isSome_lookup k t.entries

theorem map_fst_insertEntry (k : α) (v : β) (l : List (α × β)) :
    (insertEntry k v l).map (·.1) =
      if k ∈ l.map (·.1) then l.map (·.1) else l.map (·.1) ++ [k] := by
  induction l with
  | nil => rfl
  | cons e rest ih =>
    unfold insertEntry
    by_cases h : e.1 = k
    · simp [h]
    · simp only [h, if_false, List.map_cons, ih, List.mem_cons]
      by_cases hk : k ∈ rest.map (·.1)
      · simp [hk]
      · have : ¬ k = e.1 := fun hk' => h hk'.symm
        simp [hk, this]

/-- Writing under a new key puts it last; writing under an old one leaves the keys alone. -/
theorem keys_insert (t : Table α β) (k : α) (v : β) :
    (t.insert k v).keys = if k ∈ t.keys then t.keys else t.keys ++ [k] :=
  map_fst_insertEntry k v t.entries

/-- Writing entries adds their keys. -/
theorem contains_foldl_insert (l : List (α × β)) (t : Table α β) (k : α) :
    (l.foldl (fun t e => t.insert e.1 e.2) t).contains k = true ↔
      k ∈ l.map (·.1) ∨ t.contains k = true := by
  induction l generalizing t with
  | nil => simp
  | cons e l ih =>
    rw [List.foldl_cons, ih, List.map_cons, List.mem_cons]
    by_cases h : e.1 = k
    · simp [contains, get?_insert, h]
    · have hk : ¬ k = e.1 := fun hk => h hk.symm
      simp [contains, get?_insert, h, hk]

/-- The keys of the table of a list are those of its entries. -/
theorem contains_ofList (l : List (α × β)) (k : α) :
    (ofList l).contains k = true ↔ k ∈ l.map (·.1) := by
  have hempty : (empty : Table α β).contains k = false := rfl
  rw [ofList, contains_foldl_insert, hempty, or_iff_left Bool.false_ne_true]

/-- Writing entries leaves the values under other keys alone. -/
theorem get?_foldl_insert_of_not_mem {l : List (α × β)} {k : α} (h : k ∉ l.map (·.1))
    (t : Table α β) : (l.foldl (fun t e => t.insert e.1 e.2) t).get? k = t.get? k := by
  induction l generalizing t with
  | nil => rfl
  | cons e l ih =>
    rw [List.map_cons, List.mem_cons, not_or] at h
    rw [List.foldl_cons, ih h.2, get?_insert, if_neg fun hk => h.1 hk.symm]

/-- Entries under other keys, written last, change nothing. -/
theorem get?_ofList_append_of_not_mem {l l' : List (α × β)} {k : α} (h : k ∉ l'.map (·.1)) :
    (ofList (l ++ l')).get? k = (ofList l).get? k := by
  rw [ofList, List.foldl_append, get?_foldl_insert_of_not_mem h, ofList]

/-! ## Tables of lists -/

theorem mem_insertEntry {k : α} {v : β} {l : List (α × β)} {e : α × β}
    (h : e ∈ insertEntry k v l) : e = (k, v) ∨ e ∈ l := by
  induction l with
  | nil => exact .inl (List.mem_singleton.1 h)
  | cons d rest ih =>
    unfold insertEntry at h
    split at h
    · rcases List.mem_cons.1 h with rfl | h
      · exact .inl rfl
      · exact .inr (List.mem_cons_of_mem _ h)
    · rcases List.mem_cons.1 h with rfl | h
      · exact .inr List.mem_cons_self
      · exact (ih h).imp_right (List.mem_cons_of_mem _)

/-- Writing keeps the keys distinct. -/
theorem nodup_keys_insert {t : Table α β} (h : t.keys.Nodup) (k : α) (v : β) :
    (t.insert k v).keys.Nodup := by
  rw [keys_insert]
  split
  · exact h
  · rename_i hk
    rw [List.nodup_append]
    refine ⟨h, by simp, fun a ha b hb hab => hk ?_⟩
    rwa [← List.mem_singleton.1 hb, ← hab]

theorem nodup_keys_foldl_insert (l : List (α × β)) {t : Table α β} (h : t.keys.Nodup) :
    (l.foldl (fun t e => t.insert e.1 e.2) t).keys.Nodup := by
  induction l generalizing t with
  | nil => exact h
  | cons e l ih => exact ih (nodup_keys_insert h e.1 e.2)

/-- The keys of the table of a list are distinct. -/
theorem nodup_keys_ofList (l : List (α × β)) : (ofList l).keys.Nodup :=
  nodup_keys_foldl_insert l List.nodup_nil

theorem mem_entries_foldl_insert {l : List (α × β)} {t : Table α β} {e : α × β}
    (h : e ∈ (l.foldl (fun t e => t.insert e.1 e.2) t).entries) : e ∈ l ∨ e ∈ t.entries := by
  induction l generalizing t with
  | nil => exact .inr h
  | cons d l ih =>
    rcases ih h with h | h
    · exact .inl (List.mem_cons_of_mem _ h)
    · rcases mem_insertEntry h with rfl | h
      · exact .inl List.mem_cons_self
      · exact .inr h

/-- The table of a list has no other entries. -/
theorem mem_of_mem_entries_ofList {l : List (α × β)} {e : α × β} (h : e ∈ (ofList l).entries) :
    e ∈ l :=
  (mem_entries_foldl_insert h).resolve_right List.not_mem_nil

/-- A new key comes last. -/
theorem insertEntry_of_not_mem {k : α} (v : β) {l : List (α × β)} (h : k ∉ l.map (·.1)) :
    insertEntry k v l = l ++ [(k, v)] := by
  induction l with
  | nil => rfl
  | cons e rest ih =>
    rw [List.map_cons, List.mem_cons, not_or] at h
    rw [insertEntry, if_neg fun he => h.1 he.symm, ih h.2, List.cons_append]

theorem entries_foldl_insert {l : List (α × β)} {t : Table α β}
    (h : (t.keys ++ l.map (·.1)).Nodup) :
    (l.foldl (fun t e => t.insert e.1 e.2) t).entries = t.entries ++ l := by
  induction l generalizing t with
  | nil => exact (List.append_nil _).symm
  | cons e l ih =>
    have hnew : e.1 ∉ t.entries.map (·.1) := by
      intro hmem
      exact (List.nodup_append.1 h).2.2 e.1 hmem e.1 List.mem_cons_self rfl
    have hentries : (t.insert e.1 e.2).entries = t.entries ++ [e] :=
      insertEntry_of_not_mem e.2 hnew
    rw [List.foldl_cons, ih, hentries, List.append_assoc, List.singleton_append]
    simpa [keys, hentries] using h

/-- A table has all entries of a list with distinct keys, in order. -/
theorem entries_ofList {l : List (α × β)} (h : (l.map (·.1)).Nodup) : (ofList l).entries = l :=
  entries_foldl_insert h

/-- A table is the table of its entries. -/
theorem ofList_entries {t : Table α β} (h : t.keys.Nodup) : ofList t.entries = t := by
  have hentries : (ofList t.entries).entries = t.entries := entries_ofList h
  cases t
  exact congrArg Table.mk hentries

theorem get?_foldl_insert (l : List (α × β)) (t : Table α β) (k : α) :
    (l.foldl (fun t e => t.insert e.1 e.2) t).get? k = ((ofList l).get? k).or (t.get? k) := by
  induction l generalizing t with
  | nil => rfl
  | cons e l ih =>
    rw [ofList, List.foldl_cons, List.foldl_cons, ih, ih (empty.insert e.1 e.2), get?_insert,
      get?_insert]
    cases (ofList l).get? k with
    | some v => rfl
    | none => by_cases he : e.1 = k <;> simp [he, empty, get?, lookup]

/-- The later entries of a list come first. -/
theorem get?_ofList_append (l l' : List (α × β)) (k : α) :
    (ofList (l ++ l')).get? k = ((ofList l').get? k).or ((ofList l).get? k) := by
  rw [ofList, List.foldl_append, get?_foldl_insert]
  rfl

theorem get?_ofList_nil (k : α) : (ofList ([] : List (α × β))).get? k = none := rfl

theorem get?_ofList_cons (e : α × β) (l : List (α × β)) (k : α) :
    (ofList (e :: l)).get? k = ((ofList l).get? k).or (if e.1 = k then some e.2 else none) := by
  rw [ofList, List.foldl_cons, get?_foldl_insert, get?_insert]
  rfl

theorem lookup_of_mem {l : List (α × β)} (h : (l.map (·.1)).Nodup) {k : α} {v : β}
    (hmem : (k, v) ∈ l) : lookup k l = some v := by
  induction l with
  | nil => exact absurd hmem List.not_mem_nil
  | cons e rest ih =>
    rw [List.map_cons, List.nodup_cons] at h
    rcases List.mem_cons.1 hmem with rfl | hmem
    · exact if_pos rfl
    · have hne : ¬ e.1 = k := fun he => h.1 (he ▸ List.mem_map.2 ⟨(k, v), hmem, rfl⟩)
      rw [lookup, if_neg hne, ih h.2 hmem]

/-- With distinct keys every entry of a list is found. -/
theorem get?_ofList_of_mem {l : List (α × β)} (h : (l.map (·.1)).Nodup) {k : α} {v : β}
    (hmem : (k, v) ∈ l) : (ofList l).get? k = some v := by
  rw [get?, entries_ofList h, lookup_of_mem h hmem]

/-- What is found under a key is an entry. -/
theorem mem_entries_of_get? {t : Table α β} {k : α} {v : β}
    (h : t.get? k = some v) : (k, v) ∈ t.entries := by
  obtain ⟨entries⟩ := t
  rw [get?] at h
  induction entries with
  | nil => cases h
  | cons e rest ih =>
    rw [lookup] at h
    split at h
    · rename_i hk
      cases h
      exact hk ▸ List.mem_cons_self
    · exact List.mem_cons_of_mem _ (ih h)

theorem get?_ofList_of_not_mem {l : List (α × β)} {k : α} (h : k ∉ l.map (·.1)) :
    (ofList l).get? k = none :=
  get?_foldl_insert_of_not_mem h empty

/-- With distinct keys the entries are what is found. -/
theorem mem_entries_iff {t : Table α β} (h : t.keys.Nodup) {k : α} {v : β} :
    (k, v) ∈ t.entries ↔ t.get? k = some v :=
  ⟨lookup_of_mem h, mem_entries_of_get?⟩

omit [DecidableEq α] in
theorem keys_map (f : β → γ) (t : Table α β) : (t.map f).keys = t.keys := by
  simp [keys, map]

/-- Changing every value, with its key in sight, changes the value that is found. -/
theorem get?_map_entries (f : α → β → γ) (t : Table α β) (k : α) :
    (⟨t.entries.map fun e => (e.1, f e.1 e.2)⟩ : Table α γ).get? k = (t.get? k).map (f k) := by
  obtain ⟨entries⟩ := t
  rw [get?, get?]
  induction entries with
  | nil => rfl
  | cons e rest ih =>
    rw [List.map_cons, lookup, lookup]
    by_cases he : e.1 = k
    · rw [if_pos he, if_pos he, he]
      rfl
    · rw [if_neg he, if_neg he]
      exact ih

theorem get?_map (f : β → γ) (t : Table α β) (k : α) : (t.map f).get? k = (t.get? k).map f :=
  get?_map_entries (fun _ => f) t k

end Table

end ControlLogic
