import Mathlib.Data.List.AList
import Mathlib.Tactic.Common

/-!
# Tables with a primary key

A table of a database: rows with distinct keys. `insertIgnore` is an `INSERT`, which a row with the same key
refuses, `modify` an `UPDATE` of one key, `mapRows` of all rows, and `deleteWhere` a `DELETE`. A table is
known by `lookup`; `rows` lists it for a `SELECT`.
-/

namespace Chatroom.Lib

abbrev Table (κ ν : Type) := AList fun _ : κ => ν

namespace Table

variable {κ ν : Type}

def rows (t : Table κ ν) : List (κ × ν) := t.entries.map fun r => (r.1, r.2)

theorem rows_keys_nodup (t : Table κ ν) : (t.rows.map Prod.fst).Nodup := by
  rw [rows, List.map_map]
  exact t.keys_nodup

variable [DecidableEq κ]

theorem mem_rows {t : Table κ ν} {k : κ} {v : ν} : (k, v) ∈ t.rows ↔ t.lookup k = some v := by
  rw [← Option.mem_def, AList.mem_lookup_iff, rows, List.mem_map]
  constructor
  · rintro ⟨⟨k', v'⟩, hmem, heq⟩
    obtain ⟨rfl, rfl⟩ := Prod.mk.inj heq
    exact hmem
  · exact fun hmem => ⟨⟨k, v⟩, hmem, rfl⟩

theorem lookup_insert' (t : Table κ ν) (k k' : κ) (v : ν) :
    (t.insert k v).lookup k' = if k' = k then some v else t.lookup k' := by
  split
  case isTrue h => rw [h, AList.lookup_insert]
  case isFalse h => rw [AList.lookup_insert_ne h]

/-- An `INSERT`, which a row with the same key refuses. -/
def insertIgnore (t : Table κ ν) (k : κ) (v : ν) : Table κ ν :=
  if (t.lookup k).isSome then t else t.insert k v

theorem lookup_insertIgnore (t : Table κ ν) (k k' : κ) (v : ν) :
    (t.insertIgnore k v).lookup k' = if k' = k then some ((t.lookup k).getD v) else t.lookup k' := by
  rw [insertIgnore]
  cases h : t.lookup k with
  | some w =>
    rw [Option.isSome_some, if_pos rfl, Option.getD_some]
    split
    case isTrue hk => rw [hk, h]
    case isFalse => rfl
  | none => rw [Option.isSome_none, if_neg Bool.false_ne_true, Option.getD_none, lookup_insert']

def modify (t : Table κ ν) (k : κ) (f : ν → ν) : Table κ ν :=
  match t.lookup k with
  | some v => t.insert k (f v)
  | none => t

theorem lookup_modify (t : Table κ ν) (k k' : κ) (f : ν → ν) :
    (t.modify k f).lookup k' = if k' = k then (t.lookup k').map f else t.lookup k' := by
  unfold modify
  split
  case h_1 v hv =>
    rw [lookup_insert']
    split
    case isTrue hk => rw [hk, hv, Option.map_some]
    case isFalse => rfl
  case h_2 hnone =>
    split
    case isTrue hk => rw [hk, hnone, Option.map_none]
    case isFalse => rfl

theorem isSome_modify (t : Table κ ν) (k k' : κ) (f : ν → ν) :
    ((t.modify k f).lookup k').isSome = (t.lookup k').isSome := by
  rw [lookup_modify]
  split
  · exact Option.isSome_map
  · rfl

def deleteWhere (t : Table κ ν) (p : κ → Bool) : Table κ ν :=
  ⟨t.entries.filter fun r => !p r.1, t.nodupKeys.sublist List.filter_sublist⟩

theorem lookup_deleteWhere (t : Table κ ν) (p : κ → Bool) (k : κ) :
    (t.deleteWhere p).lookup k = if p k then none else t.lookup k := by
  ext v
  rw [← Option.mem_def, ← Option.mem_def, AList.mem_lookup_iff, deleteWhere, List.mem_filter]
  by_cases h : p k
  · simp [h]
  · simp only [h, Bool.not_false, and_true, Bool.false_eq_true, if_false, AList.mem_lookup_iff]

def mapRows (t : Table κ ν) (f : κ → ν → ν) : Table κ ν :=
  ⟨t.entries.map (Sigma.map id f), t.nodupKeys.map₂ f⟩

theorem lookup_mapRows (t : Table κ ν) (f : κ → ν → ν) (k : κ) :
    (t.mapRows f).lookup k = (t.lookup k).map (f k) :=
  List.dlookup_map₂ k

end Table

/-! ## Tables that number their rows -/

/-- A table with an `AUTO_INCREMENT` key: ids are positive, and `next` is greater than all of them. -/
structure AutoTable (ν : Type) where
  table : Table ℤ ν
  next : ℤ
  pos : 0 < next
  ids : ∀ id, (table.lookup id).isSome → 0 < id ∧ id < next

namespace AutoTable

variable {ν : Type}

def empty (next : ℤ) (pos : 0 < next) : AutoTable ν := ⟨∅, next, pos, by simp⟩

def lookup (t : AutoTable ν) (id : ℤ) : Option ν := t.table.lookup id

def rows (t : AutoTable ν) : List (ℤ × ν) := t.table.rows

/-- A row with the next id. A refused row uses up its id as well. -/
def insert (t : AutoTable ν) (refused : Bool) (v : ν) : AutoTable ν where
  table := if refused then t.table else t.table.insert t.next v
  next := t.next + 1
  pos := by
    have := t.pos
    omega
  ids id h := by
    have hpos := t.pos
    cases refused with
    | true =>
      obtain ⟨h₁, h₂⟩ := t.ids id h
      omega
    | false =>
      rw [if_neg Bool.false_ne_true, Table.lookup_insert'] at h
      split at h
      case isTrue heq => omega
      case isFalse =>
        obtain ⟨h₁, h₂⟩ := t.ids id h
        omega

def modify (t : AutoTable ν) (id : ℤ) (f : ν → ν) : AutoTable ν where
  table := t.table.modify id f
  next := t.next
  pos := t.pos
  ids id' h := by
    refine t.ids id' ?_
    rw [Table.lookup_modify] at h
    split at h
    case isTrue heq => simpa [heq] using h
    case isFalse => exact h

def mapRows (t : AutoTable ν) (f : ℤ → ν → ν) : AutoTable ν where
  table := t.table.mapRows f
  next := t.next
  pos := t.pos
  ids id h := by
    refine t.ids id ?_
    simpa [Table.lookup_mapRows] using h

def erase (t : AutoTable ν) (id : ℤ) : AutoTable ν where
  table := t.table.erase id
  next := t.next
  pos := t.pos
  ids id' h := by
    refine t.ids id' ?_
    by_cases heq : id' = id
    · subst heq
      simp at h
    · rwa [AList.lookup_erase_ne heq] at h

theorem bounds_of_lookup {t : AutoTable ν} {id : ℤ} {v : ν} (h : t.lookup id = some v) : 0 < id ∧ id < t.next :=
  t.ids id (Option.isSome_iff_exists.2 ⟨v, h⟩)

theorem lookup_next (t : AutoTable ν) : t.lookup t.next = none := by
  cases h : t.lookup t.next with
  | none => rfl
  | some v => exact absurd (bounds_of_lookup h).2 (Int.lt_irrefl _)

theorem lookup_of_nonpos (t : AutoTable ν) {id : ℤ} (hid : id ≤ 0) : t.lookup id = none := by
  cases h : t.lookup id with
  | none => rfl
  | some v => exact absurd (bounds_of_lookup h).1 (by omega)

theorem mem_rows {t : AutoTable ν} {id : ℤ} {v : ν} : (id, v) ∈ t.rows ↔ t.lookup id = some v := Table.mem_rows

theorem lookup_insert (t : AutoTable ν) (refused : Bool) (v : ν) (id : ℤ) :
    (t.insert refused v).lookup id = if refused = false ∧ id = t.next then some v else t.lookup id := by
  cases refused with
  | true => rfl
  | false =>
    refine (Table.lookup_insert' t.table t.next id v).trans ?_
    simp only [true_and]
    rfl

theorem lookup_modify (t : AutoTable ν) (id id' : ℤ) (f : ν → ν) :
    (t.modify id f).lookup id' = if id' = id then (t.lookup id').map f else t.lookup id' := by
  refine (Table.lookup_modify t.table id id' f).trans ?_
  split
  case isTrue h => rw [h]; rfl
  case isFalse => rfl

theorem lookup_erase (t : AutoTable ν) (id id' : ℤ) :
    (t.erase id).lookup id' = if id' = id then none else t.lookup id' := by
  split
  case isTrue h =>
    rw [h]
    exact AList.lookup_erase _ _
  case isFalse h => exact AList.lookup_erase_ne h

end AutoTable

end Chatroom.Lib
