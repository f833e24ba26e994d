import Mathlib.Data.List.Nodup
import Mathlib.Data.Set.Basic
import Mathlib.Logic.Relation

/-!
# Composite rules

A composite rule lets one flag stand for a list of others. A sweep visits every
rule once, in list order: a present composite publishes its components and is
removed. What a sweep *should* compute is the reflexive-transitive closure of
the component relation with the composites taken out; whether it does depends
on the order of the rules, since a rule that publishes a composite after that
composite's own visit leaves it behind.
-/

namespace Rvmi.Foundation

variable {α : Type*}

structure CompositeRule (α : Type*) where
  composite : α
  components : List α

namespace CompositeRule

/-- One visit: a present composite is replaced by its components. -/
def fire (r : CompositeRule α) (S : Set α) : Set α :=
  {x | x ≠ r.composite ∧ (x ∈ S ∨ r.composite ∈ S ∧ x ∈ r.components)}

/-- One pass over the rules; later rules see what earlier ones published. -/
def sweep (rules : List (CompositeRule α)) (S : Set α) : Set α :=
  rules.foldl (fun S r => r.fire S) S

/-- The flags that some rule takes apart. -/
def heads (rules : List (CompositeRule α)) : Set α :=
  {c | ∃ r ∈ rules, r.composite = c}

def Component (rules : List (CompositeRule α)) (c x : α) : Prop :=
  ∃ r ∈ rules, r.composite = c ∧ x ∈ r.components

/-- Everything `S` stands for, its own members included. -/
def closure (rules : List (CompositeRule α)) (S : Set α) : Set α :=
  {x | ∃ c ∈ S, Relation.ReflTransGen (Component rules) c x}

@[simp] theorem sweep_nil (S : Set α) : sweep [] S = S := rfl

@[simp] theorem sweep_cons (r : CompositeRule α) (rules : List (CompositeRule α))
    (S : Set α) : sweep (r :: rules) S = sweep rules (r.fire S) := rfl

/-! ## The closure -/

theorem subset_closure {rules : List (CompositeRule α)} {S : Set α} :
    S ⊆ closure rules S := fun x hx => ⟨x, hx, .refl⟩

theorem closure_component {rules : List (CompositeRule α)} {S : Set α} {c x : α}
    (hc : c ∈ closure rules S) (h : Component rules c x) :
    x ∈ closure rules S := by
  rcases hc with ⟨b, hb, hbc⟩
  exact ⟨b, hb, hbc.tail h⟩

/-- The closure is the least set above `S` that the rules do not leave. -/
theorem closure_subset {rules : List (CompositeRule α)} {S T : Set α}
    (hS : S ⊆ T) (hT : ∀ c x, c ∈ T → Component rules c x → x ∈ T) :
    closure rules S ⊆ T := by
  rintro x ⟨c, hc, hcx⟩
  induction hcx with
  | refl => exact hS hc
  | tail _ hstep ih => exact hT _ _ ih hstep

theorem closure_mono {rules : List (CompositeRule α)} {S T : Set α} (h : S ⊆ T) :
    closure rules S ⊆ closure rules T := by
  rintro x ⟨c, hc, hcx⟩
  exact ⟨c, h hc, hcx⟩

/-- A flag that no rule takes apart is in the closure of a set only as a member
or as a component of a composite of the closure. -/
theorem mem_closure_iff {rules : List (CompositeRule α)} {S : Set α} {x : α} :
    x ∈ closure rules S ↔
      x ∈ S ∨ ∃ r ∈ rules, r.composite ∈ closure rules S ∧ x ∈ r.components := by
  constructor
  · rintro ⟨c, hc, hcx⟩
    rcases Relation.ReflTransGen.cases_tail hcx with rfl | ⟨b, hcb, r, hr, rfl, hx⟩
    · exact Or.inl hc
    · exact Or.inr ⟨r, hr, ⟨c, hc, hcb⟩, hx⟩
  · rintro (hx | ⟨r, hr, hc, hx⟩)
    · exact subset_closure hx
    · exact closure_component hc ⟨r, hr, rfl, hx⟩

/-- A flag no rule publishes is in the closure only as a member. -/
theorem mem_closure_of_not_component {rules : List (CompositeRule α)} {S : Set α}
    {x : α} (h : ∀ r ∈ rules, x ∉ r.components) : x ∈ closure rules S ↔ x ∈ S := by
  rw [mem_closure_iff]
  constructor
  · rintro (hx | ⟨r, hr, -, hx⟩)
    · exact hx
    · exact absurd hx (h r hr)
  · exact Or.inl

/-- One step reaches a flag whose composites are published by no rule. -/
theorem mem_closure_of_outer {rules : List (CompositeRule α)} {S : Set α} {x : α}
    (h : ∀ r ∈ rules, x ∈ r.components → ∀ r' ∈ rules, r.composite ∉ r'.components) :
    x ∈ closure rules S ↔ x ∈ S ∨ ∃ r ∈ rules, r.composite ∈ S ∧ x ∈ r.components := by
  rw [mem_closure_iff]
  constructor
  · rintro (hx | ⟨r, hr, hc, hx⟩)
    · exact Or.inl hx
    · exact Or.inr ⟨r, hr, (mem_closure_of_not_component (h r hr hx)).mp hc, hx⟩
  · rintro (hx | ⟨r, hr, hc, hx⟩)
    · exact Or.inl hx
    · exact Or.inr ⟨r, hr, subset_closure hc, hx⟩

/-! ## A sweep never changes what a set stands for -/

theorem fire_subset_closure {rules : List (CompositeRule α)} {r : CompositeRule α}
    (hr : r ∈ rules) (S : Set α) : r.fire S ⊆ closure rules S := by
  rintro x ⟨-, hx | ⟨hc, hx⟩⟩
  · exact subset_closure hx
  · exact closure_component (subset_closure hc) ⟨r, hr, rfl, hx⟩

theorem closure_fire_subset {rules : List (CompositeRule α)} {r : CompositeRule α}
    (hr : r ∈ rules) (S : Set α) :
    closure rules (r.fire S) ⊆ closure rules S :=
  closure_subset (fire_subset_closure hr S) fun _ _ hc h => closure_component hc h

/-- The rules are one to a composite. -/
def UniqueHeads (rules : List (CompositeRule α)) : Prop :=
  (rules.map composite).Nodup

theorem UniqueHeads.eq {rules : List (CompositeRule α)} (h : UniqueHeads rules)
    {r r' : CompositeRule α} (hr : r ∈ rules) (hr' : r' ∈ rules)
    (heq : r.composite = r'.composite) : r = r' :=
  List.inj_on_of_nodup_map h hr hr' heq

/-- Firing a rule loses no flag but the composite: every path out of it starts
with one of the components that are published instead. -/
theorem mem_closure_fire {rules : List (CompositeRule α)} {r : CompositeRule α}
    (hu : UniqueHeads rules) (hr : r ∈ rules) {S : Set α} {x : α}
    (hx : x ∉ heads rules) (h : x ∈ closure rules S) :
    x ∈ closure rules (r.fire S) := by
  have key : ∀ c, Relation.ReflTransGen (Component rules) c x →
      c ∈ S ∨ c ∈ r.fire S → x ∈ closure rules (r.fire S) := by
    intro c hcx
    induction hcx using Relation.ReflTransGen.head_induction_on with
    | refl =>
        rintro (hS | hf)
        · exact subset_closure ⟨fun h => hx ⟨r, hr, h.symm⟩, Or.inl hS⟩
        · exact subset_closure hf
    | @head c y hstep hpath ih =>
        rintro (hS | hf)
        · by_cases hcr : c = r.composite
          · rcases hstep with ⟨r', hr', hr'c, hy⟩
            have hrr : r' = r := hu.eq hr' hr (hr'c.trans hcr)
            subst hrr
            by_cases hyr : y = r'.composite
            · exact ih (Or.inl (hyr ▸ hcr ▸ hS))
            · exact ih (Or.inr ⟨hyr, Or.inr ⟨hcr ▸ hS, hy⟩⟩)
          · exact ⟨c, ⟨hcr, Or.inl hS⟩, hpath.head hstep⟩
        · exact ⟨c, hf, hpath.head hstep⟩
  obtain ⟨c, hc, hcx⟩ := h
  exact key c hcx (Or.inl hc)

theorem mem_closure_sweep {rules : List (CompositeRule α)} (hu : UniqueHeads rules)
    {S : Set α} {x : α} (hx : x ∉ heads rules) :
    x ∈ closure rules (sweep rules S) ↔ x ∈ closure rules S := by
  -- the visited rules shrink along the list while the closure stays that of all
  have key : ∀ rs : List (CompositeRule α), (∀ r ∈ rs, r ∈ rules) → ∀ S : Set α,
      (x ∈ closure rules (sweep rs S) ↔ x ∈ closure rules S) := by
    intro rs
    induction rs with
    | nil => intro _ S; rfl
    | cons r rs ih =>
        intro hsub S
        have hr : r ∈ rules := hsub r List.mem_cons_self
        rw [sweep_cons, ih (fun r hr => hsub r (List.mem_cons_of_mem _ hr))]
        exact ⟨fun h => closure_fire_subset hr S h, mem_closure_fire hu hr hx⟩
  exact key rules (fun _ h => h) S

/-- A set without composites is its own closure. -/
theorem closure_eq_of_disjoint_heads {rules : List (CompositeRule α)} {S : Set α}
    (h : ∀ c ∈ heads rules, c ∉ S) : closure rules S = S := by
  apply Set.Subset.antisymm _ subset_closure
  apply closure_subset (fun x hx => hx)
  rintro c x hc ⟨r, hr, rfl, -⟩
  exact absurd hc (h _ ⟨r, hr, rfl⟩)

/-- When no composite is left behind, the sweep is the closure without its
composites. -/
theorem mem_sweep_iff_closure {rules : List (CompositeRule α)}
    (hu : UniqueHeads rules) {S : Set α}
    (hleft : ∀ c ∈ heads rules, c ∉ sweep rules S) (x : α) :
    x ∈ sweep rules S ↔ x ∈ closure rules S ∧ x ∉ heads rules := by
  constructor
  · intro hx
    have hxh : x ∉ heads rules := fun h => hleft x h hx
    exact ⟨(mem_closure_sweep hu hxh).mp (subset_closure hx), hxh⟩
  · rintro ⟨hx, hxh⟩
    have := (mem_closure_sweep hu hxh).mpr hx
    rwa [closure_eq_of_disjoint_heads hleft] at this

/-- Removing a member that no rule takes apart removes only itself from the
closure. -/
theorem mem_closure_diff_singleton {rules : List (CompositeRule α)} {S : Set α}
    {e x : α} (he : e ∉ heads rules) (hx : x ≠ e) :
    x ∈ closure rules (S \ {e}) ↔ x ∈ closure rules S := by
  constructor
  · exact fun h => closure_mono (fun _ hc => hc.1) h
  · rintro ⟨c, hc, hcx⟩
    refine ⟨c, ⟨hc, ?_⟩, hcx⟩
    rintro rfl
    rcases Relation.ReflTransGen.cases_head hcx with rfl | ⟨b, ⟨r, hr, hrc, -⟩, -⟩
    · exact hx rfl
    · exact he ⟨r, hr, hrc⟩

/-! ## Inner composites first

In a list whose inner composites come before the rules that publish them, a
sweep fires exactly the rules of the composites it was given, so a composite it
publishes stays. -/

/-- No rule publishes its own composite or that of a later rule. -/
def InnerFirst (rules : List (CompositeRule α)) : Prop :=
  (∀ r ∈ rules, r.composite ∉ r.components) ∧
    rules.Pairwise fun r r' => r'.composite ∉ r.components

theorem mem_sweep_innerFirst {x : α} : ∀ {rules : List (CompositeRule α)},
    UniqueHeads rules → InnerFirst rules → ∀ {S : Set α},
    (x ∈ sweep rules S ↔
      (x ∈ S ∧ x ∉ heads rules) ∨
        ∃ r ∈ rules, r.composite ∈ S ∧ x ∈ r.components) := by
  intro rules
  induction rules with
  | nil => intro _ _ S; simp [heads]
  | cons r rs ih =>
      rintro hu ⟨hself, horder⟩ S
      have hu' : r.composite ∉ rs.map composite ∧ UniqueHeads rs := List.nodup_cons.mp hu
      have horder' := List.pairwise_cons.mp horder
      have hrs : InnerFirst rs :=
        ⟨fun r' hr' => hself r' (List.mem_cons_of_mem _ hr'), horder'.2⟩
      -- firing the first rule does not touch the composites of the others
      have hother : ∀ r' ∈ rs, (r'.composite ∈ r.fire S ↔ r'.composite ∈ S) := by
        intro r' hr'
        have hne : r'.composite ≠ r.composite :=
          fun h => hu'.1 (List.mem_map.mpr ⟨r', hr', h⟩)
        have hnot := horder'.1 r' hr'
        simp [fire, hne, hnot]
      rw [sweep_cons, ih hu'.2 hrs]
      constructor
      · rintro (⟨⟨hxr, hx | ⟨hc, hx⟩⟩, hxh⟩ | ⟨r', hr', hc, hx⟩)
        · refine Or.inl ⟨hx, ?_⟩
          rintro ⟨r', hr', rfl⟩
          rcases List.mem_cons.mp hr' with rfl | hr'
          · exact hxr rfl
          · exact hxh ⟨r', hr', rfl⟩
        · exact Or.inr ⟨r, List.mem_cons_self, hc, hx⟩
        · exact Or.inr ⟨r', List.mem_cons_of_mem _ hr', (hother r' hr').mp hc, hx⟩
      · rintro (⟨hx, hxh⟩ | ⟨r', hr', hc, hx⟩)
        · refine Or.inl ⟨⟨?_, Or.inl hx⟩, ?_⟩
          · rintro rfl
            exact hxh ⟨r, List.mem_cons_self, rfl⟩
          · rintro ⟨r', hr', rfl⟩
            exact hxh ⟨r', List.mem_cons_of_mem _ hr', rfl⟩
        · rcases List.mem_cons.mp hr' with rfl | hr'
          · refine Or.inl ⟨⟨?_, Or.inr ⟨hc, hx⟩⟩, ?_⟩
            · rintro rfl
              exact hself r' List.mem_cons_self hx
            · rintro ⟨r₂, hr₂, rfl⟩
              exact horder'.1 r₂ hr₂ hx
          · exact Or.inr ⟨r', hr', (hother r' hr').mpr hc, hx⟩

/-- The composites that publish another composite. -/
def nested (rules : List (CompositeRule α)) : Set α :=
  {c | ∃ r ∈ rules, r.composite = c ∧ ∃ x ∈ r.components, x ∈ heads rules}

instance [DecidableEq α] (rules : List (CompositeRule α)) :
    DecidablePred (· ∈ heads rules) := fun c =>
  inferInstanceAs (Decidable (∃ r ∈ rules, r.composite = c))

instance [DecidableEq α] (rules : List (CompositeRule α)) :
    DecidablePred (· ∈ nested rules) := fun c =>
  inferInstanceAs (Decidable
    (∃ r ∈ rules, r.composite = c ∧ ∃ x ∈ r.components, x ∈ heads rules))

/-- One sweep leaves no composite exactly when it met no nested one. -/
theorem sweep_disjoint_heads_iff {rules : List (CompositeRule α)}
    (hu : UniqueHeads rules) (hi : InnerFirst rules) {S : Set α} :
    (∀ c ∈ heads rules, c ∉ sweep rules S) ↔ ∀ c ∈ nested rules, c ∉ S := by
  constructor
  · rintro h c ⟨r, hr, rfl, x, hx, hxh⟩ hc
    exact h x hxh ((mem_sweep_innerFirst hu hi).mpr (Or.inr ⟨r, hr, hc, hx⟩))
  · intro h c hch hc
    rcases (mem_sweep_innerFirst hu hi).mp hc with ⟨-, hnot⟩ | ⟨r, hr, hrS, hx⟩
    · exact hnot hch
    · exact h r.composite ⟨r, hr, rfl, c, hx, hch⟩ hrS

/-- Composites nest at most once: what a nested composite publishes is not
itself nested. -/
def NestedOnce (rules : List (CompositeRule α)) : Prop :=
  ∀ r ∈ rules, ∀ x ∈ r.components, x ∉ nested rules

/-- Under single nesting the first sweep clears the nested composites, so the
second one meets none. -/
theorem sweep_disjoint_nested {rules : List (CompositeRule α)}
    (hu : UniqueHeads rules) (hi : InnerFirst rules) (hn : NestedOnce rules)
    {S : Set α} : ∀ c ∈ nested rules, c ∉ sweep rules S := by
  intro c hcn hc
  rcases (mem_sweep_innerFirst hu hi).mp hc with ⟨-, hnot⟩ | ⟨r, hr, -, hx⟩
  · rcases hcn with ⟨r, hr, rfl, -⟩
    exact hnot ⟨r, hr, rfl⟩
  · exact hn r hr c hx hcn

/-- Two sweeps reach the closure. -/
theorem mem_sweep_sweep {rules : List (CompositeRule α)}
    (hu : UniqueHeads rules) (hi : InnerFirst rules) (hn : NestedOnce rules)
    {S : Set α} (x : α) :
    x ∈ sweep rules (sweep rules S) ↔ x ∈ closure rules S ∧ x ∉ heads rules := by
  have hleft : ∀ c ∈ heads rules, c ∉ sweep rules (sweep rules S) :=
    (sweep_disjoint_heads_iff hu hi).mpr (sweep_disjoint_nested hu hi hn)
  rw [mem_sweep_iff_closure hu hleft]
  constructor
  · rintro ⟨hx, hxh⟩
    exact ⟨(mem_closure_sweep hu hxh).mp hx, hxh⟩
  · rintro ⟨hx, hxh⟩
    exact ⟨(mem_closure_sweep hu hxh).mpr hx, hxh⟩

end CompositeRule

end Rvmi.Foundation
