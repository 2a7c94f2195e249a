import Mathlib.Data.List.Nodup
import Mathlib.Order.Lattice
import Mathlib.Tactic.Common

/-!
# Ordered sets

A `std::set`: the elements in ascending order, each once. `insert` does not insert what is there, `erase` erases what
is there, `below k` are the elements before `lower_bound(k)`, and `begin` is the smallest.
-/

namespace Chatroom.Lib

structure OrderedSet (α : Type*) [LinearOrder α] where
  toList : List α
  sorted : toList.Pairwise (· < ·)

namespace OrderedSet

variable {α β : Type*} [LinearOrder α] [LinearOrder β]

def empty : OrderedSet α := ⟨[], .nil⟩

instance : Membership α (OrderedSet α) := ⟨fun s a => a ∈ s.toList⟩

theorem mem_def {s : OrderedSet α} {a : α} : a ∈ s ↔ a ∈ s.toList := Iff.rfl

instance (s : OrderedSet α) : DecidablePred (· ∈ s) := fun a => inferInstanceAs (Decidable (a ∈ s.toList))

@[simp] theorem not_mem_empty (a : α) : a ∉ (empty : OrderedSet α) := List.not_mem_nil

theorem eq_empty {s : OrderedSet α} : s = empty ↔ ∀ a, a ∉ s := by
  obtain ⟨l, hl⟩ := s
  constructor
  · rintro h a
    rw [h]
    exact not_mem_empty a
  · intro h
    obtain rfl : l = [] := List.eq_nil_iff_forall_not_mem.2 h
    rfl

theorem nodup (s : OrderedSet α) : s.toList.Nodup := s.sorted.imp fun h => h.ne

def size (s : OrderedSet α) : ℕ := s.toList.length

/-! ## `insert` -/

def insertList (a : α) : List α → List α
  | [] => [a]
  | b :: l => if a < b then a :: b :: l else if a = b then b :: l else b :: insertList a l

theorem mem_insertList {a b : α} {l : List α} : b ∈ insertList a l ↔ b = a ∨ b ∈ l := by
  induction l with
  | nil => simp [insertList]
  | cons c l ih =>
    simp only [insertList]
    split
    case isTrue => simp
    case isFalse =>
      split
      case isTrue h =>
        subst h
        simp
      case isFalse => simp [ih, or_left_comm]

theorem sorted_insertList {a : α} {l : List α} (h : l.Pairwise (· < ·)) : (insertList a l).Pairwise (· < ·) := by
  induction l with
  | nil => simp [insertList]
  | cons b l ih =>
    obtain ⟨hb, hl⟩ := List.pairwise_cons.1 h
    simp only [insertList]
    split
    case isTrue hlt =>
      refine List.pairwise_cons.2 ⟨fun c hc => ?_, h⟩
      rcases List.mem_cons.1 hc with rfl | hc
      · exact hlt
      · exact hlt.trans (hb c hc)
    case isFalse hlt =>
      split
      case isTrue => exact h
      case isFalse hne =>
        refine List.pairwise_cons.2 ⟨fun c hc => ?_, ih hl⟩
        rcases mem_insertList.1 hc with rfl | hc
        · exact lt_of_le_of_ne (not_lt.1 hlt) (Ne.symm hne)
        · exact hb c hc

def insert (s : OrderedSet α) (a : α) : OrderedSet α := ⟨insertList a s.toList, sorted_insertList s.sorted⟩

@[simp] theorem mem_insert {s : OrderedSet α} {a b : α} : b ∈ s.insert a ↔ b = a ∨ b ∈ s := mem_insertList

/-! ## `erase` -/

def erase (s : OrderedSet α) (a : α) : OrderedSet α := ⟨s.toList.erase a, s.sorted.sublist List.erase_sublist⟩

@[simp] theorem mem_erase {s : OrderedSet α} {a b : α} : b ∈ s.erase a ↔ b ≠ a ∧ b ∈ s := s.nodup.mem_erase_iff

/-! ## `lower_bound` -/

/-- The elements before `lower_bound(k)`. -/
def below (s : OrderedSet α) (k : α) : List α := s.toList.takeWhile (· < k)

/-- The elements from `lower_bound(k)` on. -/
def dropBelow (s : OrderedSet α) (k : α) : OrderedSet α :=
  ⟨s.toList.dropWhile (· < k), s.sorted.sublist (List.dropWhile_sublist _)⟩

theorem sorted_below (s : OrderedSet α) (k : α) : (s.below k).Pairwise (· < ·) :=
  s.sorted.sublist (List.takeWhile_sublist _)

theorem mem_below {s : OrderedSet α} {k a : α} : a ∈ s.below k ↔ a ∈ s ∧ a < k := by
  obtain ⟨l, hl⟩ := s
  show a ∈ l.takeWhile _ ↔ a ∈ l ∧ a < k
  induction l with
  | nil => simp
  | cons b l ih =>
    obtain ⟨hb, hl⟩ := List.pairwise_cons.1 hl
    by_cases hlt : b < k
    · rw [List.takeWhile_cons_of_pos (by simpa using hlt), List.mem_cons, List.mem_cons, ih hl]
      constructor
      · rintro (rfl | ⟨ha, hak⟩)
        · exact ⟨.inl rfl, hlt⟩
        · exact ⟨.inr ha, hak⟩
      · rintro ⟨rfl | ha, hak⟩
        · exact .inl rfl
        · exact .inr ⟨ha, hak⟩
    · rw [List.takeWhile_cons_of_neg (by simpa using hlt)]
      refine ⟨fun h => absurd h List.not_mem_nil, ?_⟩
      rintro ⟨ha, hak⟩
      rcases List.mem_cons.1 ha with rfl | ha
      · exact absurd hak hlt
      · exact absurd ((hb a ha).trans hak) hlt

@[simp] theorem mem_dropBelow {s : OrderedSet α} {k a : α} : a ∈ s.dropBelow k ↔ a ∈ s ∧ k ≤ a := by
  have hsplit : a ∈ s ↔ a ∈ s.below k ∨ a ∈ s.dropBelow k := by
    rw [mem_def, ← List.takeWhile_append_dropWhile (p := (· < k)) (l := s.toList), List.mem_append]
    rfl
  constructor
  · intro ha
    refine ⟨hsplit.2 (.inr ha), not_lt.1 fun hlt => ?_⟩
    have hbelow : a ∈ s.below k := mem_below.2 ⟨hsplit.2 (.inr ha), hlt⟩
    have hnodup := s.nodup
    rw [← List.takeWhile_append_dropWhile (p := (· < k)) (l := s.toList)] at hnodup
    exact (List.nodup_append.1 hnodup).2.2 a hbelow a ha rfl
  · rintro ⟨ha, hle⟩
    rcases hsplit.1 ha with hbelow | hdrop
    · exact absurd (mem_below.1 hbelow).2 (not_lt.2 hle)
    · exact hdrop

/-! ## `begin` -/

def begin? (s : OrderedSet α) : Option α := s.toList.head?

theorem begin?_eq_none {s : OrderedSet α} : s.begin? = none ↔ ∀ a, a ∉ s := by
  rw [begin?, List.head?_eq_none_iff, List.eq_nil_iff_forall_not_mem]
  rfl

theorem mem_of_begin? {s : OrderedSet α} {a : α} (h : s.begin? = some a) : a ∈ s := List.mem_of_mem_head? h

theorem begin?_le {s : OrderedSet α} {a b : α} (h : s.begin? = some a) (hb : b ∈ s) : a ≤ b := by
  obtain ⟨l, hl⟩ := s
  cases l with
  | nil => cases h
  | cons c l =>
    obtain rfl : c = a := Option.some.inj h
    rcases List.mem_cons.1 hb with rfl | hb
    · exact le_rfl
    · exact ((List.pairwise_cons.1 hl).1 b hb).le

/-! ## Sets that stand for each other -/

/-- Sets whose elements stand for the same keys, each for one, are of the same size. -/
theorem size_eq {γ : Type*} {s : OrderedSet α} {t : OrderedSet β} {f : α → γ} {g : β → γ}
    (hs : ∀ a ∈ s, ∀ a' ∈ s, f a = f a' → a = a') (ht : ∀ b ∈ t, ∀ b' ∈ t, g b = g b' → b = b')
    (h : ∀ c, (∃ a ∈ s, f a = c) ↔ ∃ b ∈ t, g b = c) : s.size = t.size := by
  have hperm : (s.toList.map f).Perm (t.toList.map g) := by
    rw [List.perm_ext_iff_of_nodup (List.Nodup.map_on hs s.nodup) (List.Nodup.map_on ht t.nodup)]
    intro c
    rw [List.mem_map, List.mem_map]
    exact h c
  simpa [size] using hperm.length_eq

end OrderedSet

end Chatroom.Lib
