/-!
# Computations that leave a trace

A state monad that also records what has been touched, and whether every assertion on the way held. The rules below
give each part of the outcome of a sequence from the parts of its steps.
-/

namespace Karphin.Lib

/-- The value of a computation, the state after it, what it touched, and whether its assertions held. -/
structure Outcome (σ ρ α : Type) where
  value : α
  state : σ
  touched : List ρ
  holds : Bool

def Traced (σ ρ α : Type) : Type := σ → Outcome σ ρ α

namespace Traced

variable {σ ρ α β : Type}

instance : Monad (Traced σ ρ) where
  pure a := fun s => ⟨a, s, [], true⟩
  bind x f := fun s =>
    let o := x s
    let o' := f o.value o.state
    ⟨o'.value, o'.state, o.touched ++ o'.touched, o.holds && o'.holds⟩

def read (touched : List ρ) (f : σ → α) : Traced σ ρ α := fun s => ⟨f s, s, touched, true⟩

def write (touched : List ρ) (f : σ → σ) : Traced σ ρ Unit := fun s => ⟨(), f s, touched, true⟩

def take (touched : List ρ) (f : σ → α × σ) : Traced σ ρ α := fun s => ⟨(f s).1, (f s).2, touched, true⟩

def assert (condition : Bool) : Traced σ ρ Unit := fun s => ⟨(), s, [], condition⟩

/-! ## Rules -/

variable {x : Traced σ ρ α} {f : α → Traced σ ρ β} {s : σ}

@[simp] theorem pure_value (a : α) : ((pure a : Traced σ ρ α) s).value = a := rfl
@[simp] theorem pure_state (a : α) : ((pure a : Traced σ ρ α) s).state = s := rfl
@[simp] theorem pure_touched (a : α) : ((pure a : Traced σ ρ α) s).touched = [] := rfl
@[simp] theorem pure_holds (a : α) : ((pure a : Traced σ ρ α) s).holds = true := rfl

@[simp] theorem bind_value : ((x >>= f) s).value = (f (x s).value (x s).state).value := rfl
@[simp] theorem bind_state : ((x >>= f) s).state = (f (x s).value (x s).state).state := rfl
@[simp] theorem bind_touched : ((x >>= f) s).touched = (x s).touched ++ (f (x s).value (x s).state).touched := rfl
@[simp] theorem bind_holds : ((x >>= f) s).holds = ((x s).holds && (f (x s).value (x s).state).holds) := rfl

@[simp] theorem map_value (g : α → β) : ((g <$> x) s).value = g (x s).value := rfl
@[simp] theorem map_state (g : α → β) : ((g <$> x) s).state = (x s).state := rfl
@[simp] theorem map_touched (g : α → β) : ((g <$> x) s).touched = (x s).touched := List.append_nil _
@[simp] theorem map_holds (g : α → β) : ((g <$> x) s).holds = (x s).holds := Bool.and_true _

@[simp] theorem read_value (rs : List ρ) (g : σ → α) : (read rs g s).value = g s := rfl
@[simp] theorem read_state (rs : List ρ) (g : σ → α) : (read rs g s).state = s := rfl
@[simp] theorem read_touched (rs : List ρ) (g : σ → α) : (read rs g s).touched = rs := rfl
@[simp] theorem read_holds (rs : List ρ) (g : σ → α) : (read rs g s).holds = true := rfl

@[simp] theorem write_state (rs : List ρ) (g : σ → σ) : (write rs g s).state = g s := rfl
@[simp] theorem write_touched (rs : List ρ) (g : σ → σ) : (write rs g s).touched = rs := rfl
@[simp] theorem write_holds (rs : List ρ) (g : σ → σ) : (write rs g s).holds = true := rfl

@[simp] theorem take_value (rs : List ρ) (g : σ → α × σ) : (take rs g s).value = (g s).1 := rfl
@[simp] theorem take_state (rs : List ρ) (g : σ → α × σ) : (take rs g s).state = (g s).2 := rfl
@[simp] theorem take_touched (rs : List ρ) (g : σ → α × σ) : (take rs g s).touched = rs := rfl
@[simp] theorem take_holds (rs : List ρ) (g : σ → α × σ) : (take rs g s).holds = true := rfl

@[simp] theorem assert_state (c : Bool) : ((assert c : Traced σ ρ Unit) s).state = s := rfl
@[simp] theorem assert_touched (c : Bool) : ((assert c : Traced σ ρ Unit) s).touched = [] := rfl
@[simp] theorem assert_holds (c : Bool) : ((assert c : Traced σ ρ Unit) s).holds = c := rfl

/-! ## What is kept -/

def Keeps (P : σ → Prop) (x : Traced σ ρ α) : Prop := ∀ s, P s → P (x s).state

variable {P : σ → Prop}

@[simp] theorem Keeps.pure (a : α) : Keeps P (pure a : Traced σ ρ α) := fun _ h => h

@[simp] theorem Keeps.bind (hx : Keeps P x) (hf : ∀ a, Keeps P (f a)) : Keeps P (x >>= f) := fun s h =>
  hf (x s).value (x s).state (hx s h)

@[simp] theorem Keeps.map (g : α → β) (hx : Keeps P x) : Keeps P (g <$> x) := fun s h => hx s h

@[simp] theorem Keeps.read (rs : List ρ) (g : σ → α) : Keeps P (read rs g) := fun _ h => h

@[simp] theorem Keeps.write (rs : List ρ) {g : σ → σ} (hg : ∀ s, P s → P (g s)) : Keeps P (write rs g) := fun s h =>
  hg s h

@[simp] theorem Keeps.take (rs : List ρ) {g : σ → α × σ} (hg : ∀ s, P s → P (g s).2) : Keeps P (take rs g) :=
  fun s h => hg s h

@[simp] theorem Keeps.assert (c : Bool) : Keeps P (assert c : Traced σ ρ Unit) := fun _ h => h

@[simp] theorem Keeps.ite {c : Prop} [Decidable c] {y : Traced σ ρ α} (hx : Keeps P x) (hy : Keeps P y) :
    Keeps P (if c then x else y) := by
  split
  · exact hx
  · exact hy

/-! ## What is touched -/

def Touches (x : Traced σ ρ α) (rs : List ρ) : Prop := ∀ s r, r ∈ (x s).touched ↔ r ∈ rs

variable {rs rs' : List ρ}

theorem Touches.of_eq (h : ∀ s, (x s).touched = rs) : Touches x rs := by
  intro s r
  rw [h s]

theorem Touches.bind (hx : Touches x rs) (hf : ∀ a, Touches (f a) rs') : Touches (x >>= f) (rs ++ rs') := by
  intro s r
  rw [bind_touched, List.mem_append, List.mem_append, hx s r, hf _ _ r]

theorem Touches.congr (hx : Touches x rs) (h : ∀ r, r ∈ rs ↔ r ∈ rs') : Touches x rs' := fun s r => (hx s r).trans (h r)

theorem Touches.exists_iff (hx : Touches x rs) (s : σ) {r : ρ} : r ∈ rs ↔ ∃ s, r ∈ (x s).touched := by
  constructor
  · intro hr
    exact ⟨s, (hx s r).mpr hr⟩
  · rintro ⟨s', hr⟩
    exact (hx s' r).mp hr

end Traced

end Karphin.Lib
