import Mathlib

/-!
# Binary heaps in an array

`std::push_heap`, `std::pop_heap` and `std::make_heap` for the order in which the front is the least element. The
elements are compared by a key. Where an element goes when keys are equal is left open by the standard; here an
element stops as soon as it is not smaller than its parent.
-/

namespace Karphin.Lib.Heap

variable {α κ : Type*} [LinearOrder κ] (key : α → κ) {n : Nat}

def parent (i : Fin n) : Fin n := ⟨(i - 1) / 2, by omega⟩

/-- The element at `i` is not smaller than its parent; nothing is said at the root. -/
def Ordered (v : Vector α n) (i : Fin n) : Prop := key (v.get (parent i)) ≤ key (v.get i)

def IsHeap (a : Array α) : Prop := ∀ i, Ordered key (⟨a, rfl⟩ : Vector α a.size) i

def siftUp : Nat → Vector α n → Fin n → Vector α n
  | 0, v, _ => v
  | fuel + 1, v, i => if key (v.get i) < key (v.get (parent i)) then siftUp fuel (v.swap i (parent i)) (parent i) else v

def smallerChild (v : Vector α n) (i : Fin n) : Option (Fin n) :=
  if h : 2 * i.1 + 2 < n then
    let left : Fin n := ⟨2 * i.1 + 1, by omega⟩
    let right : Fin n := ⟨2 * i.1 + 2, h⟩
    some (if key (v.get right) < key (v.get left) then right else left)
  else if h : 2 * i.1 + 1 < n then some ⟨2 * i.1 + 1, h⟩
  else none

def siftDown : Nat → Vector α n → Fin n → Vector α n
  | 0, v, _ => v
  | fuel + 1, v, i => match smallerChild key v i with
    | none => v
    | some c => if key (v.get c) < key (v.get i) then siftDown fuel (v.swap i c) c else v

/-- Sifts down the elements before position `k`, from the last to the first. -/
def heapify : Nat → Vector α n → Vector α n
  | 0, v => v
  | k + 1, v => heapify k (if h : k < n then siftDown key n v ⟨k, h⟩ else v)

/-- `std::push_heap`: the last element is sifted up. -/
def pushHeap (a : Array α) : Array α :=
  if h : 0 < a.size then (siftUp key a.size (⟨a, rfl⟩ : Vector α a.size) ⟨a.size - 1, by omega⟩).toArray else a

def siftFront (a : Array α) : Array α :=
  if h : 0 < a.size then (siftDown key a.size (⟨a, rfl⟩ : Vector α a.size) ⟨0, h⟩).toArray else a

/-- `std::pop_heap`: the front goes to the end, and the others form a heap again. -/
def popHeap (a : Array α) : Array α :=
  if h : 0 < a.size then (siftFront key (a.swap 0 (a.size - 1)).pop).push a[0] else a

def makeHeap (a : Array α) : Array α := (heapify key (a.size / 2) (⟨a, rfl⟩ : Vector α a.size)).toArray

/-! ## Nothing is lost -/

theorem siftUp_perm : ∀ (fuel : Nat) (v : Vector α n) (i : Fin n), (siftUp key fuel v i).Perm v
  | 0, _, _ => Vector.Perm.refl _
  | fuel + 1, v, i => by
      simp only [siftUp]
      split
      · exact (siftUp_perm fuel _ _).trans (Vector.swap_perm _ _)
      · exact Vector.Perm.refl _

theorem siftDown_perm : ∀ (fuel : Nat) (v : Vector α n) (i : Fin n), (siftDown key fuel v i).Perm v
  | 0, _, _ => Vector.Perm.refl _
  | fuel + 1, v, i => by
      simp only [siftDown]
      split
      · exact Vector.Perm.refl _
      · split
        · exact (siftDown_perm fuel _ _).trans (Vector.swap_perm _ _)
        · exact Vector.Perm.refl _

theorem heapify_perm : ∀ (k : Nat) (v : Vector α n), (heapify key k v).Perm v
  | 0, _ => Vector.Perm.refl _
  | k + 1, v => by
      simp only [heapify]
      split
      · exact (heapify_perm k _).trans (siftDown_perm key _ _ _)
      · exact heapify_perm k v

/-! ## The root is the least element -/

theorem root_le {v : Vector α n} (h : ∀ i, Ordered key v i) (h0 : 0 < n) :
    ∀ (k : Nat) (hk : k < n), key (v.get ⟨0, h0⟩) ≤ key (v.get ⟨k, hk⟩) := by
  intro k
  induction k using Nat.strongRecOn with
  | ind k ih =>
      intro hk
      by_cases hk0 : k = 0
      · subst hk0
        exact le_refl _
      · exact le_trans (ih ((k - 1) / 2) (by omega) (by omega)) (h ⟨k, hk⟩)

/-! ## Sifting up -/

/-- Only the element at `i` may be smaller than its parent, and its children are not smaller than its parent. -/
structure UpOrder (v : Vector α n) (i : Fin n) : Prop where
  except : ∀ k, k ≠ i → Ordered key v k
  below : ∀ k, parent k = i → k ≠ i → key (v.get (parent i)) ≤ key (v.get k)

theorem get_swap (v : Vector α n) (i j k : Fin n) :
    (v.swap i j).get k = if k = i then v.get j else if k = j then v.get i else v.get k := by
  have hget : ∀ (w : Vector α n) (k : Fin n), w.get k = w[k.1] := fun _ _ => rfl
  simp only [hget, Vector.getElem_swap, Fin.ext_iff]

theorem UpOrder.swap {v : Vector α n} {i : Fin n} (h : UpOrder key v i) (hlt : key (v.get i) < key (v.get (parent i))) :
    UpOrder key (v.swap i (parent i)) (parent i) := by
  have hne : parent i ≠ i := by
    intro heq
    rw [heq] at hlt
    exact lt_irrefl _ hlt
  have hchild : ∀ k, parent k = parent i → k ≠ i → k ≠ parent i → key (v.get (parent i)) ≤ key (v.get k) := by
    intro k hk hki _
    have := h.except k hki
    rwa [Ordered, hk] at this
  constructor
  · intro k hk
    simp only [Ordered, get_swap]
    by_cases hki : k = i
    · subst hki
      simp only [if_neg hne, if_true]
      exact le_of_lt hlt
    · simp only [if_neg hki, if_neg hk]
      split
      · next hp => exact h.below k hp hki
      · split
        · next hp => exact le_trans (le_of_lt hlt) (hchild k hp hki hk)
        · exact h.except k hki
  · intro k hk hkp
    have hgrand : key (v.get i) ≤ key (v.get (parent i)) := le_of_lt hlt
    -- either the parent is the root, and its own parent by convention, or it has a parent of its own
    have hpp : parent (parent i) = parent i ∨ (parent (parent i) ≠ parent i ∧ parent (parent i) ≠ i) := by
      simp only [Fin.ext_iff, parent, ne_eq] at hne ⊢
      omega
    have hki : k = i ∨ k ≠ i := em _
    obtain hroot | ⟨hpne, hpi⟩ := hpp
    · simp only [get_swap, hroot, if_neg hne, if_true, if_neg hkp]
      obtain rfl | hki := hki
      · simpa using hgrand
      · rw [if_neg hki]
        exact le_trans hgrand (hchild k hk hki hkp)
    · have hord : key (v.get (parent (parent i))) ≤ key (v.get (parent i)) := h.except (parent i) hne
      simp only [get_swap, if_neg hpne, if_neg hpi, if_neg hkp]
      obtain rfl | hki := hki
      · simpa using hord
      · rw [if_neg hki]
        exact le_trans hord (hchild k hk hki hkp)

theorem siftUp_ordered : ∀ (fuel : Nat) (v : Vector α n) (i : Fin n), i.1 ≤ fuel → UpOrder key v i →
    ∀ k, Ordered key (siftUp key fuel v i) k
  | 0, v, i, hf, h, k => by
      by_cases hk : k = i
      · subst hk
        have hp : parent k = k := by
          simp only [Fin.ext_iff, parent]
          omega
        simp only [siftUp, Ordered, hp, le_refl]
      · exact h.except k hk
  | fuel + 1, v, i, hf, h, k => by
      simp only [siftUp]
      split
      · next hlt =>
          have hp : (parent i).1 ≤ fuel := by
            simp only [parent]
            omega
          exact siftUp_ordered fuel _ _ hp (h.swap key hlt) k
      · next hle =>
          by_cases hk : k = i
          · subst hk
            exact not_lt.1 hle
          · exact h.except k hk

/-! ## Sifting down -/

/-- Positions below `m` aside, only the children of `i` may be smaller than their parent `i`, and they are not
smaller than the parent of `i`. -/
structure DownOrder (m : Nat) (v : Vector α n) (i : Fin n) : Prop where
  except : ∀ k, m ≤ (parent k).1 → parent k ≠ i → Ordered key v k
  above : m ≤ (parent i).1 → parent i ≠ i → ∀ k, parent k = i → k ≠ i → key (v.get (parent i)) ≤ key (v.get k)

theorem smallerChild_spec (v : Vector α n) (i : Fin n) :
    (smallerChild key v i = none ∧ ∀ k, parent k = i → k = i) ∨
    ∃ c, smallerChild key v i = some c ∧ parent c = i ∧ i.1 < c.1 ∧
      ∀ k, parent k = i → k ≠ i → key (v.get c) ≤ key (v.get k) := by
  have hchild : ∀ k : Fin n, parent k = i → k ≠ i → k.1 = 2 * i.1 + 1 ∨ k.1 = 2 * i.1 + 2 := by
    intro k hk hki
    simp only [parent, Fin.ext_iff, ne_eq] at hk hki
    omega
  simp only [smallerChild]
  split
  · next h =>
      right
      refine ⟨_, rfl, ?_, ?_, ?_⟩
      · split <;> simp only [parent, Fin.ext_iff] <;> omega
      · split <;> simp only <;> omega
      · intro k hk hki
        have hk' : k = ⟨2 * i.1 + 1, by omega⟩ ∨ k = ⟨2 * i.1 + 2, h⟩ := by
          simpa only [Fin.ext_iff] using hchild k hk hki
        split
        · next hlt =>
            obtain hk' | hk' := hk'
            · rw [hk']
              exact le_of_lt hlt
            · rw [hk']
        · next hle =>
            obtain hk' | hk' := hk'
            · rw [hk']
            · rw [hk']
              exact not_lt.1 hle
  · next h =>
      split
      · next h' =>
          right
          refine ⟨_, rfl, ?_, ?_, ?_⟩
          · simp only [parent, Fin.ext_iff]
            omega
          · simp only
            omega
          · intro k hk hki
            have hk' : k = ⟨2 * i.1 + 1, h'⟩ := by
              have := hchild k hk hki
              simp only [Fin.ext_iff]
              omega
            rw [hk']
      · next h' =>
          left
          refine ⟨rfl, fun k hk => ?_⟩
          by_contra hki
          have := hchild k hk hki
          omega

theorem DownOrder.swap {m : Nat} {v : Vector α n} {i c : Fin n} (h : DownOrder key m v i) (hm : m ≤ i.1)
    (hc : parent c = i) (hic : i.1 < c.1) (hmin : ∀ k, parent k = i → k ≠ i → key (v.get c) ≤ key (v.get k))
    (hlt : key (v.get c) < key (v.get i)) : DownOrder key m (v.swap i c) c := by
  have hne : c ≠ i := fun heq => by simp [heq] at hic
  constructor
  · intro k hk hkc
    simp only [Ordered, get_swap]
    by_cases hpi : parent k = i
    · by_cases hki : k = i
      · subst hki
        simp [hpi]
      · rw [if_pos hpi, if_neg hki]
        split
        · exact le_of_lt hlt
        · exact hmin k hpi hki
    · rw [if_neg hpi, if_neg hkc]
      by_cases hki : k = i
      · subst hki
        rw [if_pos rfl]
        exact h.above hk hpi c hc hne
      · have hkc' : k ≠ c := fun heq => hpi (heq ▸ hc)
        rw [if_neg hki, if_neg hkc']
        exact h.except k hk hpi
  · intro _ _ k hk hkc
    have hki : k ≠ i := by
      rintro rfl
      have := congrArg Fin.val hk
      simp only [parent] at this
      omega
    simp only [get_swap, hc, if_true, if_neg hki, if_neg hkc]
    have hord := h.except k (by rw [hk]; omega) (by rw [hk]; exact hne)
    rwa [Ordered, hk] at hord

theorem siftDown_ordered {m : Nat} : ∀ (fuel : Nat) (v : Vector α n) (i : Fin n), n ≤ fuel + i.1 → m ≤ i.1 →
    DownOrder key m v i → ∀ k, m ≤ (parent k).1 → Ordered key (siftDown key fuel v i) k
  | 0, v, i, hf, _, _, _, _ => by omega
  | fuel + 1, v, i, hf, hm, h, k, hk => by
      have hself : ∀ {w : Vector α n}, parent k = k → Ordered key w k := by
        intro w hp
        rw [Ordered, hp]
      simp only [siftDown]
      obtain ⟨hnone, hleaf⟩ | ⟨c, hsome, hc, hic, hmin⟩ := smallerChild_spec key v i
      · simp only [hnone]
        by_cases hpi : parent k = i
        · exact hself (by rw [hpi, hleaf k hpi])
        · exact h.except k hk hpi
      · simp only [hsome]
        split
        · next hlt =>
            exact siftDown_ordered fuel _ c (by omega) (by omega) (h.swap key hm hc hic hmin hlt) k hk
        · next hle =>
            by_cases hpi : parent k = i
            · by_cases hki : k = i
              · exact hself (by rw [hpi, hki])
              · rw [Ordered, hpi]
                exact le_trans (not_lt.1 hle) (hmin k hpi hki)
            · exact h.except k hk hpi

theorem heapify_ordered : ∀ (m : Nat) (v : Vector α n), (∀ k, m ≤ (parent k).1 → Ordered key v k) →
    ∀ k, Ordered key (heapify key m v) k
  | 0, v, h, k => h k (Nat.zero_le _)
  | m + 1, v, h, k => by
      apply heapify_ordered m
      intro k hk
      split
      · next hm =>
          apply siftDown_ordered key (m := m) n v ⟨m, hm⟩ (by omega) (Nat.le_refl _) _ k hk
          constructor
          · intro k hk hkm
            apply h k
            simp only [Fin.ext_iff, ne_eq] at hkm
            omega
          · intro hp hpm
            simp only [parent, Fin.ext_iff, ne_eq] at hp hpm
            omega
      · next hm => exact absurd (Nat.lt_of_le_of_lt hk (parent k).2) hm

/-! ## The operations on arrays -/

section Array

variable {a : Array α} {x : α}

theorem isHeap_iff : IsHeap key a ↔ ∀ (k : Nat) (hk : k < a.size), key a[(k - 1) / 2] ≤ key a[k] :=
  ⟨fun h k hk => h ⟨k, hk⟩, fun h k => h k.1 k.2⟩

theorem IsHeap.front_le (h : IsHeap key a) (h0 : 0 < a.size) : ∀ x ∈ a, key a[0] ≤ key x := by
  intro x hx
  obtain ⟨k, hk, rfl⟩ := Array.mem_iff_getElem.1 hx
  exact root_le key h h0 k hk

theorem isHeap_toArray {v : Vector α n} (h : ∀ k, Ordered key v k) : IsHeap key v.toArray := by
  obtain ⟨a, rfl⟩ := v
  exact h

theorem makeHeap_isHeap (a : Array α) : IsHeap key (makeHeap key a) := by
  apply isHeap_toArray
  apply heapify_ordered
  intro k hk
  have hself : parent k = k := by
    simp only [parent, Fin.ext_iff] at hk ⊢
    omega
  rw [Ordered, hself]

theorem makeHeap_perm (a : Array α) : (makeHeap key a).Perm a := (heapify_perm key _ _).toArray

theorem pushHeap_perm (a : Array α) : (pushHeap key a).Perm a := by
  simp only [pushHeap]
  split
  · exact (siftUp_perm key _ _ _).toArray
  · exact Array.Perm.refl _

theorem pushHeap_isHeap (h : IsHeap key a) : IsHeap key (pushHeap key (a.push x)) := by
  have hget : ∀ (k : Nat) (hk : k < a.size) (hk' : k < (a.push x).size),
      (⟨a.push x, rfl⟩ : Vector α (a.push x).size).get ⟨k, hk'⟩ = (⟨a, rfl⟩ : Vector α a.size).get ⟨k, hk⟩ :=
    fun k hk _ => Array.getElem_push_lt hk
  have hpos : 0 < (a.push x).size := by simp
  rw [pushHeap, dif_pos hpos]
  apply isHeap_toArray
  apply siftUp_ordered
  · simp
  · constructor
    · intro k hk
      have hk' : k.1 < a.size := by
        have := k.2
        simp only [Array.size_push, Nat.add_sub_cancel, Fin.ext_iff, ne_eq] at this hk
        omega
      have hp : (k.1 - 1) / 2 < a.size := by omega
      have hord := h ⟨k.1, hk'⟩
      simp only [Ordered, parent] at hord ⊢
      rw [hget _ hp, hget _ hk']
      exact hord
    · intro k hk hne
      have := k.2
      simp only [parent, Array.size_push, Nat.add_sub_cancel, Fin.ext_iff, ne_eq] at this hk hne
      omega

theorem siftFront_perm (a : Array α) : (siftFront key a).Perm a := by
  simp only [siftFront]
  split
  · exact (siftDown_perm key _ _ _).toArray
  · exact Array.Perm.refl _

theorem siftFront_isHeap (h : ∀ k, (parent k).1 ≠ 0 → Ordered key (⟨a, rfl⟩ : Vector α a.size) k) :
    IsHeap key (siftFront key a) := by
  simp only [siftFront]
  split
  · next h0 =>
      apply isHeap_toArray
      intro k
      apply siftDown_ordered key (m := 0) a.size _ ⟨0, h0⟩ (by simp) (Nat.le_refl _) _ k (Nat.zero_le _)
      constructor
      · intro k _ hk
        exact h k (fun heq => hk (Fin.ext heq))
      · intro _ hne
        exact absurd (Fin.ext (by simp [parent])) hne
  · next h0 =>
      intro k
      exact absurd (Nat.lt_of_le_of_lt (Nat.zero_le _) k.2) h0

theorem swap_pop_push (h0 : 0 < a.size) : (a.swap 0 (a.size - 1)).pop.push a[0] = a.swap 0 (a.size - 1) := by
  apply Array.ext
  · simp
    omega
  · intro i hi hi'
    simp only [Array.getElem_push, Array.size_pop, Array.size_swap, Array.getElem_pop, Array.getElem_swap]
    simp only [Array.size_push, Array.size_pop, Array.size_swap] at hi
    by_cases hi1 : i < a.size - 1
    · simp [hi1]
    · have heq : i = a.size - 1 := by omega
      subst heq
      by_cases h1 : a.size - 1 = 0
      · simp [h1]
      · simp [h1]

theorem popHeap_spec (h : IsHeap key a) (h0 : 0 < a.size) :
    ∃ b, popHeap key a = b.push a[0] ∧ IsHeap key b ∧ (b.push a[0]).Perm a := by
  rw [popHeap, dif_pos h0]
  refine ⟨_, rfl, ?_, ?_⟩
  · apply siftFront_isHeap
    intro k hk
    have hsize := k.2
    simp only [Array.size_pop, Array.size_swap] at hsize
    have hget : ∀ (j : Nat) (hj : j < (a.swap 0 (a.size - 1)).pop.size) (hj' : j < a.size) (_ : j ≠ 0),
        (⟨(a.swap 0 (a.size - 1)).pop, rfl⟩ : Vector α _).get ⟨j, hj⟩ = (⟨a, rfl⟩ : Vector α a.size).get ⟨j, hj'⟩ := by
      intro j hj hj' hj0
      simp only [Array.size_pop, Array.size_swap] at hj
      have hj1 : j ≠ a.size - 1 := by omega
      simp [Vector.get, hj0, hj1]
    have hord := h ⟨k.1, by omega⟩
    simp only [Ordered, parent] at hk hord ⊢
    rw [hget _ _ (by omega) hk, hget _ k.2 (by omega) (by omega)]
    exact hord
  · have hperm := (siftFront_perm key (a.swap 0 (a.size - 1)).pop).push a[0]
    rw [swap_pop_push h0] at hperm
    exact hperm.trans (Array.swap_perm h0 (by omega))

end Array

end Karphin.Lib.Heap
