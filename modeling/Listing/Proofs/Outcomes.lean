import Mathlib.Data.List.Forall2
import Mathlib.Data.List.Perm.Basic
import Listing.Fault

set_option autoImplicit false

namespace Listing.Outcome

variable {α β : Type}

theorem ok_bind (a : α) (f : α → Outcome β) : (.ok a : Outcome α) >>= f = f a := rfl

theorem bind_eq_ok_iff {x : Outcome α} {f : α → Outcome β} {b : β} :
    x >>= f = .ok b ↔ ∃ a, x = .ok a ∧ f a = .ok b := by
  cases x with
  | error e => simp [bind, Except.bind]
  | ok a => simp [bind, Except.bind]

/-- What comes after a computation matters for its result only. -/
theorem bind_congr_of_ok {x : Outcome α} {f g : α → Outcome β} (h : ∀ a, x = .ok a → f a = g a) :
    x >>= f = x >>= g := by
  cases x with
  | error e => rfl
  | ok a => exact h a rfl

theorem map_eq_ok_iff {x : Outcome α} {f : α → β} {b : β} :
    f <$> x = .ok b ↔ ∃ a, x = .ok a ∧ f a = b := by
  cases x with
  | error e => simp [Functor.map, Except.map]
  | ok a => simp [Functor.map, Except.map]

theorem mapM_eq_ok_iff {f : α → Outcome β} {xs : List α} {ys : List β} :
    xs.mapM f = .ok ys ↔ xs.map f = ys.map .ok := by
  induction xs generalizing ys with
  | nil =>
    cases ys with
    | nil => simp [pure, Except.pure]
    | cons y ys => simp [pure, Except.pure]
  | cons x xs ih =>
    rw [List.mapM_cons, bind_eq_ok_iff]
    constructor
    · rintro ⟨y, hy, h⟩
      obtain ⟨rest, hrest, h⟩ := bind_eq_ok_iff.1 h
      cases h
      rw [List.map_cons, hy, ih.1 hrest, List.map_cons]
    · intro h
      cases ys with
      | nil => simp at h
      | cons y ys =>
        rw [List.map_cons, List.map_cons, List.cons.injEq] at h
        exact ⟨y, h.1, bind_eq_ok_iff.2 ⟨ys, ih.2 h.2, rfl⟩⟩

theorem mapM_length {f : α → Outcome β} {xs : List α} {ys : List β} (h : xs.mapM f = .ok ys) :
    ys.length = xs.length := by
  have hmap := congrArg List.length (mapM_eq_ok_iff.1 h)
  rw [List.length_map, List.length_map] at hmap
  exact hmap.symm

theorem mapM_drop {f : α → Outcome β} {xs : List α} {ys : List β} (h : xs.mapM f = .ok ys)
    (n : Nat) : (xs.drop n).mapM f = .ok (ys.drop n) := by
  rw [mapM_eq_ok_iff, List.map_drop, List.map_drop, mapM_eq_ok_iff.1 h]

theorem mapM_take {f : α → Outcome β} {xs : List α} {ys : List β} (h : xs.mapM f = .ok ys)
    (n : Nat) : (xs.take n).mapM f = .ok (ys.take n) := by
  rw [mapM_eq_ok_iff, List.map_take, List.map_take, mapM_eq_ok_iff.1 h]

theorem mapM_perm {f : α → Outcome β} {xs xs' : List α} {ys ys' : List β}
    (h : xs.mapM f = .ok ys) (h' : xs'.mapM f = .ok ys') (hp : xs.Perm xs') : ys.Perm ys' := by
  have hmap := hp.map f
  rw [mapM_eq_ok_iff.1 h, mapM_eq_ok_iff.1 h'] at hmap
  exact (List.map_perm_map_iff fun _ _ => Except.ok.inj).1 hmap

theorem map_of_mapM {γ : Type} {f : α → Outcome β} {g : β → γ} {k : α → γ} {xs : List α}
    {ys : List β} (h : xs.mapM f = .ok ys) (hf : ∀ x y, f x = .ok y → g y = k x) :
    ys.map g = xs.map k := by
  induction xs generalizing ys with
  | nil =>
    cases h
    rfl
  | cons x xs ih =>
    rw [List.mapM_cons] at h
    obtain ⟨y, hy, h⟩ := bind_eq_ok_iff.1 h
    obtain ⟨rest, hrest, h⟩ := bind_eq_ok_iff.1 h
    cases h
    rw [List.map_cons, List.map_cons, hf x y hy, ih hrest]

theorem exists_of_mem_mapM {f : α → Outcome β} {xs : List α} {ys : List β}
    (h : xs.mapM f = .ok ys) {y : β} (hy : y ∈ ys) : ∃ x ∈ xs, f x = .ok y := by
  have hmem : Except.ok y ∈ xs.map f := by
    rw [mapM_eq_ok_iff.1 h]
    exact List.mem_map_of_mem hy
  exact List.mem_map.1 hmem

theorem mapM_congr {f g : α → Outcome β} {xs : List α} (h : ∀ x ∈ xs, f x = g x) :
    xs.mapM f = xs.mapM g := by
  induction xs with
  | nil => rfl
  | cons x xs ih =>
    rw [List.mapM_cons, List.mapM_cons, h x List.mem_cons_self,
      ih fun y hy => h y (List.mem_cons_of_mem _ hy)]

def verdict (x : Outcome α) : Outcome Unit := (fun _ => ()) <$> x

theorem verdict_eq_ok_iff {x : Outcome α} : verdict x = .ok () ↔ ∃ a, x = .ok a := by
  rw [verdict, map_eq_ok_iff]
  constructor
  · rintro ⟨a, ha, -⟩
    exact ⟨a, ha⟩
  · rintro ⟨a, ha⟩
    exact ⟨a, ha, rfl⟩

theorem verdict_eq_error_iff {x : Outcome α} {e : Fault} :
    verdict x = .error e ↔ x = .error e := by
  cases x with
  | error e' => simp [verdict, Functor.map, Except.map]
  | ok a => simp [verdict, Functor.map, Except.map]

theorem verdict_bind (x : Outcome α) (f : α → Outcome β) :
    verdict (x >>= f) = x >>= fun a => verdict (f a) := by
  cases x <;> rfl

theorem verdict_bind_ok (x : Outcome α) (f : α → β) :
    verdict (x >>= fun a => .ok (f a)) = verdict x := by
  cases x <;> rfl

theorem verdict_map (x : Outcome α) (f : α → β) : verdict (f <$> x) = verdict x := by
  cases x <;> rfl

/-- A row of computations has results if each of them has one, the first fault counting. -/
theorem verdict_mapM (f : α → Outcome β) (xs : List α) :
    verdict (xs.mapM f) = forM xs fun x => verdict (f x) := by
  induction xs with
  | nil => rfl
  | cons x xs ih =>
    rw [List.mapM_cons, List.forM_cons, ← ih]
    cases f x with
    | error e => rfl
    | ok y => exact verdict_bind_ok (xs.mapM f) _

theorem forM_eq_ok_iff {f : α → Outcome Unit} {xs : List α} :
    forM xs f = .ok () ↔ ∀ x ∈ xs, f x = .ok () := by
  induction xs with
  | nil => exact iff_of_true rfl (List.forall_mem_nil _)
  | cons x xs ih =>
    rw [List.forM_cons, bind_eq_ok_iff, List.forall_mem_cons, ih]
    constructor
    · rintro ⟨⟨⟩, hx, hxs⟩
      exact ⟨hx, hxs⟩
    · rintro ⟨hx, hxs⟩
      exact ⟨(), hx, hxs⟩

theorem exists_mapM_ok {f : α → Outcome β} {xs : List α} (h : ∀ x ∈ xs, ∃ y, f x = .ok y) :
    ∃ ys, xs.mapM f = .ok ys := by
  rw [← verdict_eq_ok_iff, verdict_mapM, forM_eq_ok_iff]
  exact fun x hx => verdict_eq_ok_iff.2 (h x hx)

theorem exists_of_forM_error {f : α → Outcome Unit} {xs : List α} {e : Fault}
    (h : forM xs f = .error e) : ∃ x ∈ xs, f x = .error e := by
  induction xs with
  | nil => cases h
  | cons x xs ih =>
    rw [List.forM_cons] at h
    cases hx : f x with
    | error e' =>
      rw [hx] at h
      cases h
      exact ⟨x, List.mem_cons_self, hx⟩
    | ok u =>
      rw [hx] at h
      obtain ⟨y, hy, he⟩ := ih h
      exact ⟨y, List.mem_cons_of_mem _ hy, he⟩

theorem forM_congr {f g : α → Outcome Unit} {xs : List α} (h : ∀ x ∈ xs, f x = g x) :
    (forM xs f : Outcome Unit) = forM xs g := by
  induction xs with
  | nil => rfl
  | cons x xs ih =>
    rw [List.forM_cons, List.forM_cons, h x List.mem_cons_self,
      ih fun y hy => h y (List.mem_cons_of_mem _ hy)]

theorem forM_flatMap (f : β → Outcome Unit) (g : α → List β) (xs : List α) :
    (forM (xs.flatMap g) f : Outcome Unit) = forM xs fun x => forM (g x) f := by
  induction xs with
  | nil => rfl
  | cons x xs ih => rw [List.flatMap_cons, List.forM_append, List.forM_cons, ih]

theorem forM_filter {f : α → Outcome Unit} {p : α → Bool} {xs : List α}
    (h : ∀ x ∈ xs, p x = false → f x = .ok ()) :
    (forM (xs.filter p) f : Outcome Unit) = forM xs f := by
  induction xs with
  | nil => rfl
  | cons x xs ih =>
    have hrest := ih fun y hy => h y (List.mem_cons_of_mem _ hy)
    cases hp : p x with
    | true => rw [List.filter_cons_of_pos hp, List.forM_cons, List.forM_cons, hrest]
    | false =>
      rw [List.filter_cons_of_neg (Bool.eq_false_iff.1 hp), List.forM_cons,
        h x List.mem_cons_self hp, hrest]
      rfl

variable {γ δ : Type}

/-- Two computations have results that are the same as far as a function tells, or the same
fault. -/
def AgreeOn (k : α → γ) (x y : Outcome α) : Prop := k <$> x = k <$> y

variable {k : α → γ} {l : β → δ}

theorem AgreeOn.refl (x : Outcome α) : AgreeOn k x x := rfl

theorem AgreeOn.ok {a b : α} (h : k a = k b) : AgreeOn k (.ok a) (.ok b) := congrArg Except.ok h

theorem AgreeOn.bind {x y : Outcome α} {f g : α → Outcome β} (h : AgreeOn k x y)
    (hf : ∀ a b, k a = k b → AgreeOn l (f a) (g b)) : AgreeOn l (x >>= f) (y >>= g) := by
  cases x with
  | error e =>
    cases y with
    | error e' =>
      cases h
      rfl
    | ok b => cases h
  | ok a =>
    cases y with
    | error e => cases h
    | ok b => exact hf a b (Except.ok.inj h)

theorem AgreeOn.after (x : Outcome α) {f g : α → Outcome β} (h : ∀ a, AgreeOn l (f a) (g a)) :
    AgreeOn l (x >>= f) (x >>= g) := by
  cases x with
  | error e => exact AgreeOn.refl _
  | ok a => exact h a

theorem AgreeOn.mapM {R : β → β → Prop} {f : β → Outcome α} {xs ys : List β}
    (h : List.Forall₂ R xs ys) (hf : ∀ a b, R a b → AgreeOn k (f a) (f b)) :
    AgreeOn (List.map k) (xs.mapM f) (ys.mapM f) := by
  induction h with
  | nil => exact AgreeOn.refl _
  | cons hab _ ih =>
    rw [List.mapM_cons, List.mapM_cons]
    refine AgreeOn.bind (hf _ _ hab) fun a b h => ?_
    refine AgreeOn.bind ih fun as bs hs => AgreeOn.ok ?_
    rw [List.map_cons, List.map_cons, h, hs]

/-- If two computations both have results, the results are related. -/
def WhenBoth (R : α → β → Prop) (x : Outcome α) (y : Outcome β) : Prop :=
  ∀ a b, x = .ok a → y = .ok b → R a b

section Related

variable {R : α → α → Prop} {S : β → β → Prop} {x y : Outcome α}

theorem WhenBoth.ok {a b : α} (h : R a b) : WhenBoth R (.ok a) (.ok b) := by
  intro a' b' ha hb
  cases ha
  cases hb
  exact h

theorem WhenBoth.refl (h : ∀ a, R a a) (x : Outcome α) : WhenBoth R x x := by
  intro a b ha hb
  rw [ha] at hb
  cases hb
  exact h a

theorem WhenBoth.bind (h : WhenBoth R x y) {f g : α → Outcome β}
    (hf : ∀ a b, R a b → WhenBoth S (f a) (g b)) : WhenBoth S (x >>= f) (y >>= g) := by
  intro c d hc hd
  obtain ⟨a, ha, hc⟩ := bind_eq_ok_iff.1 hc
  obtain ⟨b, hb, hd⟩ := bind_eq_ok_iff.1 hd
  exact hf a b (h a b ha hb) c d hc hd

theorem WhenBoth.map (h : WhenBoth R x y) {f g : α → β} (hf : ∀ a b, R a b → S (f a) (g b)) :
    WhenBoth S (f <$> x) (g <$> y) := by
  intro c d hc hd
  obtain ⟨a, ha, rfl⟩ := map_eq_ok_iff.1 hc
  obtain ⟨b, hb, rfl⟩ := map_eq_ok_iff.1 hd
  exact hf a b (h a b ha hb)

theorem WhenBoth.mapM {f g : α → Outcome β} {xs ys : List α} (h : List.Forall₂ R xs ys)
    (hf : ∀ a b, R a b → WhenBoth S (f a) (g b)) :
    WhenBoth (List.Forall₂ S) (xs.mapM f) (ys.mapM g) := by
  induction h with
  | nil => exact WhenBoth.ok .nil
  | cons hab _ ih =>
    rw [List.mapM_cons, List.mapM_cons]
    exact (hf _ _ hab).bind fun c d hcd => ih.bind fun cs ds hcs => WhenBoth.ok (.cons hcd hcs)

theorem WhenBoth.foldlM {f g : β → α → Outcome β} {xs ys : List α} (h : List.Forall₂ R xs ys)
    (hf : ∀ s t, S s t → ∀ a b, R a b → WhenBoth S (f s a) (g t b)) {s t : β} (hs : S s t) :
    WhenBoth S (xs.foldlM f s) (ys.foldlM g t) := by
  induction h generalizing s t with
  | nil => exact WhenBoth.ok hs
  | cons hab _ ih =>
    rw [List.foldlM_cons, List.foldlM_cons]
    exact (hf s t hs _ _ hab).bind fun s' t' hs' => ih hs'

end Related

/-- If the first of two computations has a result, the second has a related one. -/
def Follows (R : α → β → Prop) (x : Outcome α) (y : Outcome β) : Prop :=
  ∀ a, x = .ok a → ∃ b, y = .ok b ∧ R a b

section Following

variable {R : α → β → Prop} {S : γ → δ → Prop}

theorem Follows.ok {a : α} {b : β} (h : R a b) : Follows R (.ok a) (.ok b) := by
  intro a' ha
  cases ha
  exact ⟨b, rfl, h⟩

theorem Follows.bind {x : Outcome α} {y : Outcome β} (h : Follows R x y) {f : α → Outcome γ}
    {g : β → Outcome δ} (hf : ∀ a b, R a b → Follows S (f a) (g b)) :
    Follows S (x >>= f) (y >>= g) := by
  intro c hc
  obtain ⟨a, ha, hc⟩ := bind_eq_ok_iff.1 hc
  obtain ⟨b, rfl, hab⟩ := h a ha
  exact hf a b hab c hc

theorem Follows.of_result {x : Outcome α} {y : Outcome β} (h : Follows R x y) :
    Follows (fun a b => x = .ok a ∧ R a b) x y := by
  intro a ha
  obtain ⟨b, hb, hab⟩ := h a ha
  exact ⟨b, hb, ha, hab⟩

theorem Follows.after {x : Outcome α} {f : α → Outcome γ} {g : α → Outcome δ}
    (h : ∀ a, x = .ok a → Follows S (f a) (g a)) : Follows S (x >>= f) (x >>= g) := by
  intro c hc
  obtain ⟨a, rfl, hc⟩ := bind_eq_ok_iff.1 hc
  exact h a rfl c hc

theorem Follows.mapM {f : α → Outcome γ} {g : β → Outcome δ} {xs : List α} {ys : List β}
    (h : List.Forall₂ R xs ys) (hf : ∀ a b, R a b → Follows S (f a) (g b)) :
    Follows (List.Forall₂ S) (xs.mapM f) (ys.mapM g) := by
  induction h with
  | nil => exact Follows.ok .nil
  | cons hab _ ih =>
    rw [List.mapM_cons, List.mapM_cons]
    exact (hf _ _ hab).bind fun c d hcd => ih.bind fun cs ds hcs => Follows.ok (.cons hcd hcs)

theorem Follows.mapM_self {f : α → Outcome γ} {g : α → Outcome δ} {xs : List α}
    (hf : ∀ x ∈ xs, Follows S (f x) (g x)) : Follows (List.Forall₂ S) (xs.mapM f) (xs.mapM g) := by
  have hxs : List.Forall₂ (fun a b => a = b ∧ a ∈ xs) xs xs :=
    List.forall₂_same.2 fun x hx => ⟨rfl, hx⟩
  refine Follows.mapM hxs ?_
  rintro a b ⟨rfl, ha⟩
  exact hf a ha

end Following

end Listing.Outcome
