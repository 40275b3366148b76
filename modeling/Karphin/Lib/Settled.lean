import Mathlib

/-!
# Footprints of state transformers

A state is seen through its locations: `get s ℓ` is the content of the location `ℓ`, whose type may depend
on the location. The footprint of a transformer is a pair of sets of locations: what it may look at and
what it overwrites. Transformers with separate footprints commute, and a location that a transformer does
not look at cannot influence it.
-/

namespace Karphin.Lib

variable {σ L : Type*} {V : L → Type*}

/-- The two states have the same content at every location of `R`. -/
def AgreeOn (get : σ → (ℓ : L) → V ℓ) (R : Set L) (s t : σ) : Prop :=
  ∀ ℓ ∈ R, get s ℓ = get t ℓ

/-- `f` changes nothing outside `W`, and what it leaves in `W` is determined by what it found in `R`. -/
structure Footprint (get : σ → (ℓ : L) → V ℓ) (f : σ → σ) (R W : Set L) : Prop where
  frame : ∀ s, ∀ ℓ ∉ W, get (f s) ℓ = get s ℓ
  determined : ∀ {s t}, AgreeOn get R s t → AgreeOn get W (f s) (f t)

variable {get : σ → (ℓ : L) → V ℓ} {f g : σ → σ} {R R' W W' D : Set L} {s t : σ}

theorem AgreeOn.mono (h : AgreeOn get R s t) (hR : W ⊆ R) : AgreeOn get W s t :=
  fun ℓ hℓ => h ℓ (hR hℓ)

theorem Footprint.agreeOn (hf : Footprint get f R W) (hd : Disjoint W D) (s : σ) : AgreeOn get D (f s) s :=
  fun ℓ hℓ => hf.frame s ℓ (Set.disjoint_right.mp hd hℓ)

theorem Footprint.comm (hget : ∀ {s t}, (∀ ℓ, get s ℓ = get t ℓ) → s = t)
    (hf : Footprint get f R W) (hg : Footprint get g R' W')
    (hfg : Disjoint W R') (hgf : Disjoint W' R) (hW : Disjoint W W') (s : σ) :
    f (g s) = g (f s) := by
  apply hget
  intro ℓ
  by_cases hℓ : ℓ ∈ W
  · -- written by `f`, which finds in `g s` what it would find in `s`
    rw [hg.frame (f s) ℓ (Set.disjoint_left.mp hW hℓ)]
    exact hf.determined (hg.agreeOn hgf s) ℓ hℓ
  · rw [hf.frame (g s) ℓ hℓ]
    by_cases hℓ' : ℓ ∈ W'
    · exact (hg.determined (hf.agreeOn hfg s) ℓ hℓ').symm
    · rw [hg.frame s ℓ hℓ', hg.frame (f s) ℓ hℓ', hf.frame s ℓ hℓ]

theorem Footprint.agreeOn_compl (hf : Footprint get f R W) (hd : Disjoint R D)
    (h : AgreeOn get Dᶜ s t) : AgreeOn get (D \ W)ᶜ (f s) (f t) := by
  intro ℓ hℓ
  by_cases hw : ℓ ∈ W
  · exact hf.determined (h.mono (Set.disjoint_left.mp hd)) ℓ hw
  · rw [hf.frame s ℓ hw, hf.frame t ℓ hw]
    exact h ℓ fun hD => hℓ ⟨hD, hw⟩

end Karphin.Lib

/-!
# Running again

A sequence of partial transformers that only look at what none of them writes, or at what has been written before, does
the same when it is run again on its result, and the result stays as it is.
-/

namespace Karphin.Lib

variable {σ L : Type*} {V : L → Type*}

/-- What a transformer looks at, what it always writes, and what it may write or leave as it is. -/
structure Places (L : Type*) where
  reads : Set L
  writes : Set L
  mayWrite : Set L

/-- On the states of an invariant, `f` keeps what it may not write, and what it looks at determines whether it
succeeds, which places it writes and what it writes there. -/
structure Effect (get : σ → (ℓ : L) → V ℓ) (inv : σ → Prop) (f : σ → Option σ) (p : Places L) : Prop where
  keeps : ∀ {s s'}, inv s → f s = some s' → inv s'
  frame : ∀ {s s'}, inv s → f s = some s' → AgreeOn get (p.mayWrite)ᶜ s' s
  lockstep : ∀ {s t s'}, inv s → inv t → AgreeOn get p.reads s t → f s = some s' →
    ∃ t', f t = some t' ∧ AgreeOn get p.writes s' t' ∧
      ∀ ℓ, get s' ℓ = get t' ℓ ∨ (get s' ℓ = get s ℓ ∧ get t' ℓ = get t ℓ)

def runAll : List (σ → Option σ) → σ → Option σ
  | [], s => some s
  | f :: fs, s => (f s).bind (runAll fs)

/-- Of the places of `U`, each transformer looks only at those of `A` and at those that one before it has written. -/
def Settled (U : Set L) : Set L → List (Places L) → Prop
  | _, [] => True
  | A, p :: ps => p.reads ∩ U ⊆ A ∧ Settled U (A ∪ p.writes) ps

def untouched (ps : List (Places L)) : Set L := {ℓ | ∀ p ∈ ps, ℓ ∉ p.mayWrite}

variable {get : σ → (ℓ : L) → V ℓ} {inv : σ → Prop} {fs : List (σ → Option σ)} {ps : List (Places L)} {A U : Set L}
  {s s' t : σ}

theorem Footprint.effect {f : σ → Option σ} {g : σ → σ} {R W : Set L} (hg : Footprint get g R W) (fails : σ → Bool)
    (hkeeps : ∀ s, inv s → inv (g s)) (hfails : ∀ {s t}, AgreeOn get R s t → fails s = fails t)
    (hf : ∀ s, inv s → f s = if fails s then none else some (g s)) : Effect get inv f ⟨R, W, W⟩ where
  keeps {s s'} hs hrun := by
    rw [hf s hs] at hrun
    split at hrun
    · cases hrun
    · obtain rfl := Option.some.inj hrun
      exact hkeeps s hs
  frame {s s'} hs hrun := by
    rw [hf s hs] at hrun
    split at hrun
    · cases hrun
    · obtain rfl := Option.some.inj hrun
      exact hg.frame s
  lockstep {s t s'} hs ht hagree hrun := by
    rw [hf s hs] at hrun
    split at hrun
    · cases hrun
    · next hok =>
      obtain rfl := Option.some.inj hrun
      refine ⟨g t, ?_, hg.determined hagree, fun ℓ => ?_⟩
      · rw [hf t ht, ← hfails hagree, if_neg hok]
      · by_cases hℓ : ℓ ∈ W
        · exact .inl (hg.determined hagree ℓ hℓ)
        · exact .inr ⟨hg.frame s ℓ hℓ, hg.frame t ℓ hℓ⟩

theorem Settled.of_compl (hU : Settled U A ps) (hrest : Settled Uᶜ A ps) : Settled Set.univ A ps := by
  induction ps generalizing A with
  | nil => trivial
  | cons p ps ih =>
    refine ⟨fun ℓ hℓ => ?_, ih hU.2 hrest.2⟩
    by_cases h : ℓ ∈ U
    · exact hU.1 ⟨hℓ.1, h⟩
    · exact hrest.1 ⟨hℓ.1, h⟩

theorem Effect.agreeOn {f : σ → Option σ} {p : Places L} (h : Effect get inv f p) (hs : inv s) (ht : inv t)
    (hagree : AgreeOn get A s t) (hreads : p.reads ⊆ A) (hrun : f s = some s') :
    ∃ t', f t = some t' ∧ AgreeOn get (A ∪ p.writes) s' t' ∧
      ∀ ℓ, get s' ℓ = get t' ℓ ∨ (get s' ℓ = get s ℓ ∧ get t' ℓ = get t ℓ) := by
  obtain ⟨t', ht', hwrites, hlock⟩ := h.lockstep hs ht (hagree.mono hreads) hrun
  refine ⟨t', ht', ?_, hlock⟩
  rintro ℓ (hA | hwritten)
  · rcases hlock ℓ with hsame | ⟨hs', ht'⟩
    · exact hsame
    · rw [hs', ht', hagree ℓ hA]
  · exact hwrites ℓ hwritten

theorem runAll_lockstep (h : List.Forall₂ (Effect get inv) fs ps) (hsettled : Settled Set.univ A ps) (hs : inv s)
    (ht : inv t) (hagree : AgreeOn get A s t) (hrun : runAll fs s = some s') :
    ∃ t', runAll fs t = some t' ∧ ∀ ℓ, get s' ℓ = get t' ℓ ∨ (get s' ℓ = get s ℓ ∧ get t' ℓ = get t ℓ) := by
  induction h generalizing A s t with
  | nil =>
    obtain rfl := Option.some.inj hrun
    exact ⟨t, rfl, fun ℓ => .inr ⟨rfl, rfl⟩⟩
  | cons hf hfs ih =>
    obtain ⟨s₁, hs₁, hrest⟩ := Option.bind_eq_some_iff.mp hrun
    have hreads := fun ℓ hℓ => hsettled.1 ⟨hℓ, Set.mem_univ ℓ⟩
    obtain ⟨t₁, ht₁, hagree₁, hlock₁⟩ := hf.agreeOn hs ht hagree hreads hs₁
    obtain ⟨t', ht', hlock⟩ := ih hsettled.2 (hf.keeps hs hs₁) (hf.keeps ht ht₁) hagree₁ hrest
    refine ⟨t', Option.bind_eq_some_iff.mpr ⟨t₁, ht₁, ht'⟩, fun ℓ => ?_⟩
    rcases hlock ℓ with hsame | ⟨hkept, hkept'⟩
    · exact .inl hsame
    · rw [hkept, hkept']
      exact hlock₁ ℓ

theorem runAll_frame (h : List.Forall₂ (Effect get inv) fs ps) (hs : inv s) (hrun : runAll fs s = some s') :
    inv s' ∧ AgreeOn get (untouched ps) s s' := by
  induction h generalizing s with
  | nil =>
    obtain rfl := Option.some.inj hrun
    exact ⟨hs, fun _ _ => rfl⟩
  | @cons f p fs ps hf hfs ih =>
    obtain ⟨s₁, hs₁, hrest⟩ := Option.bind_eq_some_iff.mp hrun
    obtain ⟨hinv, hkept⟩ := ih (hf.keeps hs hs₁) hrest
    refine ⟨hinv, fun ℓ hℓ => ?_⟩
    rw [← hkept ℓ fun q hq => hℓ q (List.mem_cons_of_mem p hq)]
    exact (hf.frame hs hs₁ ℓ (hℓ p List.mem_cons_self)).symm

theorem runAll_again (hget : ∀ {s t}, (∀ ℓ, get s ℓ = get t ℓ) → s = t) (h : List.Forall₂ (Effect get inv) fs ps)
    (hsettled : Settled Set.univ (untouched ps) ps) (hs : inv s) (hrun : runAll fs s = some s') :
    runAll fs s' = some s' := by
  obtain ⟨hs', hkept⟩ := runAll_frame h hs hrun
  obtain ⟨t', ht', hlock⟩ := runAll_lockstep h hsettled hs hs' hkept hrun
  have hsame : t' = s' := by
    apply hget
    intro ℓ
    rcases hlock ℓ with hsame | ⟨-, hsame⟩
    · exact hsame.symm
    · exact hsame
  rw [ht', hsame]

end Karphin.Lib
