import Mathlib.Algebra.GroupWithZero.Nat
import Mathlib.Tactic.Common

/-!
# Runs of a step function

A run feeds a list of inputs to a step function. `steps` lists every input together with the state
that meets it, so that a property of a whole run is a property of the entries of one list. Two rules
reduce such properties to single steps: `steps_inv` for what holds everywhere, and `steps_between`
for what one step establishes and the following ones keep. Where the state has components and every
input only touches its own, `steps_component` takes a run apart: what happens to one component is the
run of its own inputs, whatever stands between them.
-/

namespace LatencyObservatory.Lib

variable {σ ι : Type} (step : σ → ι → σ)

/-- Each input of a run with the state it meets. -/
@[grind =]
def steps : σ → List ι → List (σ × ι)
  | _, [] => []
  | s, x :: xs => (s, x) :: steps (step s x) xs

variable {step}

theorem steps_append (s : σ) (xs ys : List ι) :
    steps step s (xs ++ ys) = steps step s xs ++ steps step (xs.foldl step s) ys := by
  induction xs generalizing s with
  | nil => rfl
  | cons x xs ih => simp only [List.cons_append, steps, List.foldl_cons, ih]

theorem steps_getElem? {s t : σ} {xs : List ι} {n : Nat} {x : ι}
    (h : (steps step s xs)[n]? = some (t, x)) : xs[n]? = some x ∧ t = (xs.take n).foldl step s := by
  induction xs generalizing s n with
  | nil => simp [steps] at h
  | cons y ys ih =>
    cases n with
    | zero =>
      simp only [steps, List.getElem?_cons_zero, Option.some.injEq, Prod.mk.injEq] at h
      obtain ⟨rfl, rfl⟩ := h
      exact ⟨rfl, rfl⟩
    | succ n =>
      rw [steps, List.getElem?_cons_succ] at h
      obtain ⟨hx, ht⟩ := ih h
      exact ⟨by rw [List.getElem?_cons_succ]; exact hx, by rw [List.take_succ_cons, List.foldl_cons]; exact ht⟩

theorem mem_of_mem_steps {s : σ} {xs : List ι} {p : σ × ι} (h : p ∈ steps step s xs) : p.2 ∈ xs := by
  obtain ⟨n, hn⟩ := List.getElem?_of_mem h
  exact List.mem_of_getElem? (steps_getElem? hn).1

/-- A selection of a run's entries that only looks at the inputs is a selection of the inputs. -/
theorem steps_filter_map {β : Type} {s : σ} {xs : List ι} {p : σ × ι → Bool} {q : ι → Bool} {f : σ × ι → β}
    {g : ι → β} (hp : ∀ e ∈ steps step s xs, p e = q e.2)
    (hf : ∀ e ∈ steps step s xs, p e = true → f e = g e.2) :
    ((steps step s xs).filter p).map f = (xs.filter q).map g := by
  induction xs generalizing s with
  | nil => rfl
  | cons x xs ih =>
    have hhead : p (s, x) = q x := hp _ List.mem_cons_self
    have hrest := ih (fun e he => hp e (List.mem_cons_of_mem _ he)) fun e he => hf e (List.mem_cons_of_mem _ he)
    simp only [steps, List.filter_cons]
    by_cases hx : p (s, x) = true
    · rw [if_pos hx, if_pos (hhead ▸ hx), List.map_cons, List.map_cons, hrest, hf _ List.mem_cons_self hx]
    · rw [if_neg hx, if_neg (hhead ▸ hx), hrest]

theorem foldl_inv {Inv : σ → Prop} (hstep : ∀ s x, Inv s → Inv (step s x)) {s : σ} (hs : Inv s)
    (xs : List ι) : Inv (xs.foldl step s) := by
  induction xs generalizing s with
  | nil => exact hs
  | cons x xs ih => exact ih (hstep s x hs)

theorem foldl_inv_of_allowed {Inv : σ → Prop} {allowed : σ → ι → Prop}
    (hstep : ∀ s x, allowed s x → Inv s → Inv (step s x)) {s : σ} (hs : Inv s) (xs : List ι)
    (hxs : ∀ p ∈ steps step s xs, allowed p.1 p.2) : Inv (xs.foldl step s) := by
  induction xs generalizing s with
  | nil => exact hs
  | cons x xs ih =>
    refine ih (hstep s x (hxs (s, x) List.mem_cons_self) hs) ?_
    intro p hp
    exact hxs p (List.mem_cons_of_mem _ hp)

/-- A property that a step keeps exactly when its input is allowed holds all along a run exactly when all inputs
are. The second invariant may be used to tell which inputs are allowed. -/
theorem take_foldl_iff {Inv P : σ → Prop} {allowed : σ → ι → Prop} (hinv : ∀ s x, Inv s → Inv (step s x))
    (hstep : ∀ s x, Inv s → P s → (P (step s x) ↔ allowed s x)) {s : σ} (hs : Inv s) (hP : P s) (xs : List ι) :
    (∀ n, P ((xs.take n).foldl step s)) ↔ ∀ p ∈ steps step s xs, allowed p.1 p.2 := by
  induction xs generalizing s with
  | nil => simp [steps, hP]
  | cons x xs ih =>
    constructor
    · intro h p hp
      have hnext : P (step s x) := h 1
      rcases List.mem_cons.mp hp with rfl | hp
      · exact (hstep s x hs hP).mp hnext
      · exact (ih (hinv s x hs) hnext).mp (fun n => h (n + 1)) p hp
    · intro h n
      have hnext : P (step s x) := (hstep s x hs hP).mpr (h (s, x) List.mem_cons_self)
      cases n with
      | zero => exact hP
      | succ n => exact (ih (hinv s x hs) hnext).mpr (fun p hp => h p (List.mem_cons_of_mem _ hp)) n

theorem take_steps_iff {P : σ → List (σ × ι) → Prop} {allowed : σ → ι → Prop}
    (hstep : ∀ s past x, P s past → (P (step s x) (past ++ [(s, x)]) ↔ allowed s x)) {s : σ} (hs : P s [])
    (xs : List ι) :
    (∀ n, P ((xs.take n).foldl step s) ((steps step s xs).take n)) ↔ ∀ p ∈ steps step s xs, allowed p.1 p.2 := by
  -- The induction is on the inputs, with an arbitrary past before them.
  have hrun : ∀ (xs : List ι) (s : σ) (past : List (σ × ι)), P s past →
      ((∀ n, P ((xs.take n).foldl step s) (past ++ (steps step s xs).take n)) ↔
        ∀ p ∈ steps step s xs, allowed p.1 p.2) := by
    intro xs
    induction xs with
    | nil =>
      intro s past hpast
      simp [steps, hpast]
    | cons x xs ih =>
      intro s past hpast
      have hshift : ∀ n, past ++ (steps step s (x :: xs)).take (n + 1) =
          past ++ [(s, x)] ++ (steps step (step s x) xs).take n := by
        intro n
        rw [steps, List.take_succ_cons, List.append_assoc]
        rfl
      constructor
      · intro h p hp
        have hnext : P (step s x) (past ++ [(s, x)]) := by
          have hone := h 1
          rw [hshift, List.take_zero, List.append_nil] at hone
          exact hone
        rcases List.mem_cons.mp hp with rfl | hp
        · exact (hstep s past x hpast).mp hnext
        · refine (ih (step s x) _ hnext).mp (fun n => ?_) p hp
          have hlater := h (n + 1)
          rw [hshift] at hlater
          exact hlater
      · intro h n
        have hnext := (hstep s past x hpast).mpr (h (s, x) List.mem_cons_self)
        cases n with
        | zero => simpa using hpast
        | succ n =>
          rw [hshift]
          exact (ih (step s x) _ hnext).mpr (fun p hp => h p (List.mem_cons_of_mem _ hp)) n
  have hall := hrun xs s [] hs
  simp only [List.nil_append] at hall
  exact hall

theorem steps_inv {Inv : σ → Prop} (hstep : ∀ s x, Inv s → Inv (step s x)) {s : σ} (hs : Inv s)
    {xs : List ι} {n : Nat} {t : σ} {x : ι} (h : (steps step s xs)[n]? = some (t, x)) : Inv t := by
  rw [(steps_getElem? h).2]
  exact foldl_inv hstep hs _

theorem steps_succ {s t u : σ} {xs : List ι} {n : Nat} {x y : ι}
    (hn : (steps step s xs)[n]? = some (t, x)) (hsucc : (steps step s xs)[n + 1]? = some (u, y)) :
    u = step t x := by
  obtain ⟨hx, ht⟩ := steps_getElem? hn
  rw [(steps_getElem? hsucc).2, List.take_add_one, hx, List.foldl_append, ← ht]
  rfl

theorem steps_between {R : σ → Prop} {s t u : σ} {xs : List ι} {i j : Nat} {x y : ι} (hij : i < j)
    (hi : (steps step s xs)[i]? = some (t, x)) (hj : (steps step s xs)[j]? = some (u, y))
    (hR : R (step t x))
    (hkeep : ∀ m v z, i < m → m < j → (steps step s xs)[m]? = some (v, z) → R v → R (step v z)) : R u := by
  induction j generalizing u y with
  | zero => omega
  | succ j ih =>
    by_cases hlt : i < j
    · -- The entry before `j + 1` exists, and the property is met there by induction.
      have hlen : j < (steps step s xs).length := by
        have := (List.getElem?_eq_some_iff.mp hj).1
        omega
      obtain ⟨⟨v, z⟩, hv⟩ : ∃ p, (steps step s xs)[j]? = some p := ⟨_, List.getElem?_eq_getElem hlen⟩
      have hRv : R v := ih hlt hv fun m w a him hmj => hkeep m w a him (by omega)
      rw [steps_succ hv hj]
      exact hkeep j v z hlt (by omega) hv hRv
    · have hji : j = i := by omega
      subst hji
      rw [steps_succ hi hj]
      exact hR

/-! ### Counters and selections -/

theorem foldl_counter {get : σ → Nat} {p : ι → Bool}
    (hstep : ∀ s x, get (step s x) = get s + if p x then 1 else 0) (s : σ) (xs : List ι) :
    get (xs.foldl step s) = get s + xs.countP p := by
  induction xs generalizing s with
  | nil => rfl
  | cons x xs ih =>
    rw [List.foldl_cons, ih, hstep, List.countP_cons]
    omega

/-- A part of the state that only the chosen inputs touch sees a run of the chosen inputs. -/
theorem foldl_selected {τ : Type} {get : σ → τ} {p : ι → Bool} {part : τ → ι → τ}
    (hstep : ∀ s x, get (step s x) = if p x then part (get s) x else get s) (s : σ) (xs : List ι) :
    get (xs.foldl step s) = (xs.filter p).foldl part (get s) := by
  induction xs generalizing s with
  | nil => rfl
  | cons x xs ih =>
    rw [List.foldl_cons, ih, hstep, List.filter_cons]
    split_ifs <;> rfl

theorem sum_modify {α : Type} {f : α → Nat} {g : α → α} {d : Nat} (hg : ∀ a, f (g a) = f a + d) {l : List α}
    {i : Nat} (hi : i < l.length) : ((l.modify i g).map f).sum = (l.map f).sum + d := by
  induction l generalizing i with
  | nil => simp at hi
  | cons a rest ih =>
    cases i with
    | zero =>
      simp only [List.modify_zero_cons, List.map_cons, List.sum_cons, hg]
      omega
    | succ i =>
      have hrest := ih (Nat.lt_of_succ_lt_succ hi)
      simp only [List.modify_succ_cons, List.map_cons, List.sum_cons, hrest]
      omega

theorem sum_map_set {α : Type} {g : α → Nat} {l : List α} {i : Nat} {old new : α} (h : l[i]? = some old) :
    ((l.set i new).map g).sum + g old = (l.map g).sum + g new := by
  induction l generalizing i with
  | nil => simp at h
  | cons x l ih =>
    cases i with
    | zero =>
      simp only [List.getElem?_cons_zero, Option.some.injEq] at h
      subst h
      simp only [List.set_cons_zero, List.map_cons, List.sum_cons]
      omega
    | succ i =>
      have hrest := ih h
      simp only [List.set_cons_succ, List.map_cons, List.sum_cons]
      omega

/-! ### Independent components -/

section Components

variable {κ τ ρ : Type} [DecidableEq κ] {get : σ → κ → τ} {key : ι → κ} {proj : ι → ρ} {part : τ → ρ → τ}

theorem foldl_component
    (hlocal : ∀ s x k, get (step s x) k = if key x = k then part (get s k) (proj x) else get s k)
    (s : σ) (xs : List ι) (k : κ) :
    get (xs.foldl step s) k = ((xs.filter fun x => key x = k).map proj).foldl part (get s k) := by
  induction xs generalizing s with
  | nil => rfl
  | cons x xs ih =>
    rw [List.foldl_cons, ih, hlocal, List.filter_cons]
    by_cases hkey : key x = k
    · simp only [hkey, if_true, decide_true, List.map_cons, List.foldl_cons]
    · simp only [hkey, if_false, decide_false, Bool.false_eq_true]

theorem steps_component
    (hlocal : ∀ s x k, get (step s x) k = if key x = k then part (get s k) (proj x) else get s k)
    (s : σ) (xs : List ι) (k : κ) :
    ((steps step s xs).filter fun p => key p.2 = k).map (fun p => (get p.1 k, proj p.2)) =
      steps part (get s k) ((xs.filter fun x => key x = k).map proj) := by
  induction xs generalizing s with
  | nil => rfl
  | cons x xs ih =>
    have hrest := ih (step s x)
    rw [hlocal] at hrest
    simp only [steps, List.filter_cons]
    by_cases hkey : key x = k
    · simp only [hkey, if_true, decide_true, List.map_cons, steps] at hrest ⊢
      rw [hrest]
    · simp only [hkey, if_false, decide_false, Bool.false_eq_true] at hrest ⊢
      exact hrest

end Components

end LatencyObservatory.Lib
