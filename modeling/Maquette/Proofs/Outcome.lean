/-
Computations taken apart. An outcome that succeeds has succeeded in each of its steps; a run passes
the notices left before it from step to step, whether it ends in a result or in a fault.
-/
import Maquette.Notice
import Mathlib

namespace Maquette

/-! ## Selections -/

section Selections

variable {m : Type → Type} [Monad m] [LawfulMonad m] {α β : Type}

/-- A selection from a list whose tests all just return. -/
theorem filterM_pure {f : α → m Bool} {g : α → Bool} {xs : List α}
    (h : ∀ x ∈ xs, f x = pure (g x)) : xs.filterM f = pure (xs.filter g) := by
  have haux : ∀ acc, xs.filterAuxM f acc = pure ((xs.filter g).reverse ++ acc) := by
    induction xs with
    | nil => exact fun acc => rfl
    | cons x xs ih =>
      obtain ⟨hx, hxs⟩ := List.forall_mem_cons.1 h
      intro acc
      rw [List.filterAuxM, hx, pure_bind, ih hxs, List.filter_cons]
      cases g x <;> simp
  rw [List.filterM, haux, pure_bind, List.append_nil, List.reverse_reverse]

/-- A selection from what a list is mapped to, whose steps all just return. -/
theorem filterMapM_map {γ : Type} {f : β → m (Option γ)} {k : α → β} {g : α → Option γ} {xs : List α}
    (h : ∀ x ∈ xs, f (k x) = pure (g x)) : (xs.map k).filterMapM f = pure (xs.filterMap g) := by
  induction xs with
  | nil => rfl
  | cons x xs ih =>
    obtain ⟨hx, hxs⟩ := List.forall_mem_cons.1 h
    rw [List.map_cons, List.filterMapM_cons, hx, pure_bind, List.filterMap_cons, ih hxs]
    cases g x <;> simp

end Selections

/-! ## Lists -/

/-- Items that no comparison parts stay in the order that they had before sorting. -/
theorem filter_mergeSort {α : Type} {le : α → α → Bool} {p : α → Bool}
    (htrans : ∀ a b c, le a b = true → le b c = true → le a c = true)
    (htotal : ∀ a b, (le a b || le b a) = true) (hp : ∀ a b, p a = true → p b = true → le a b = true)
    (items : List α) : (items.mergeSort le).filter p = items.filter p := by
  have hsub : (items.filter p).Sublist (items.mergeSort le) := by
    refine List.sublist_mergeSort htrans htotal ?_ List.filter_sublist
    exact List.pairwise_of_forall_mem_list fun a ha b hb =>
      hp a b (List.mem_filter.1 ha).2 (List.mem_filter.1 hb).2
  have hfilter := hsub.filter p
  rw [List.filter_filter] at hfilter
  simp only [Bool.and_self] at hfilter
  refine (hfilter.eq_of_length ?_).symm
  exact ((List.mergeSort_perm items le).filter p).length_eq.symm

/-- Where an item stands in a list with one more at the end: it is this one, or stands before it. -/
theorem split_snoc {α : Type} {before rest xs : List α} {x last : α}
    (h : xs ++ [last] = before ++ x :: rest) : (rest = [] ∧ before = xs ∧ x = last) ∨
      ∃ rest', rest = rest' ++ [last] ∧ xs = before ++ x :: rest' := by
  rcases List.eq_nil_or_concat rest with rfl | ⟨rest', y, rfl⟩
  · obtain ⟨rfl, heq⟩ := List.append_inj' h rfl
    exact .inl ⟨rfl, rfl, (List.singleton_inj.1 heq).symm⟩
  · rw [List.concat_eq_append, ← List.cons_append, ← List.append_assoc] at h
    obtain ⟨rfl, heq⟩ := List.append_inj' h rfl
    obtain rfl := List.singleton_inj.1 heq
    exact .inr ⟨rest', List.concat_eq_append .., rfl⟩

/-! ## Outcomes -/

namespace Outcome

variable {α β : Type}

@[simp] theorem pure_eq (a : α) : (pure a : Outcome α) = .ok a := rfl

@[simp] theorem throw_eq (f : Fault) : (throw f : Outcome α) = .error f := rfl

@[simp] theorem ok_bind (a : α) (f : α → Outcome β) : ((.ok a : Outcome α) >>= f) = f a := rfl

@[simp] theorem error_bind (e : Fault) (f : α → Outcome β) :
    ((.error e : Outcome α) >>= f) = .error e := rfl

@[simp] theorem map_ok (a : α) (f : α → β) : f <$> (.ok a : Outcome α) = .ok (f a) := rfl

theorem bind_ok {x : Outcome α} {f : α → Outcome β} {b : β} (h : x >>= f = .ok b) :
    ∃ a, x = .ok a ∧ f a = .ok b := by
  cases x with
  | error e => cases h
  | ok a => exact ⟨a, rfl, h⟩

theorem bind_error {x : Outcome α} {f : α → Outcome β} {e : Fault} (h : x >>= f = .error e) :
    x = .error e ∨ ∃ a, x = .ok a ∧ f a = .error e := by
  cases x with
  | error e' => cases h; exact .inl rfl
  | ok a => exact .inr ⟨a, rfl, h⟩

theorem map_ok_inv {x : Outcome α} {f : α → β} {b : β} (h : f <$> x = .ok b) :
    ∃ a, x = .ok a ∧ f a = b := by
  cases x with
  | error e => cases h
  | ok a => cases h; exact ⟨a, rfl, rfl⟩

/-- A computation that chooses between two steps before it goes on. -/
theorem ite_bind {c : Prop} [Decidable c] (x y : Outcome α) (f : α → Outcome β) :
    (if c then x >>= f else y >>= f) = (if c then x else y) >>= f := by
  split <;> rfl

theorem ite_bind_ok {c : Prop} [Decidable c] {x y : Outcome α} {f : α → Outcome β} {b : β}
    (h : (if c then x >>= f else y >>= f) = .ok b) :
    ∃ a, (if c then x else y) = .ok a ∧ f a = .ok b := by
  rw [ite_bind] at h
  exact bind_ok h

/-- What follows a value that is computed in one case only, and given in the other one. -/
theorem ite_pure_bind_ok {γ : Type} {c : Prop} [Decidable c] {x : Outcome α} {g : α → β} {y : β}
    {f : β → Outcome γ} {z : γ}
    (h : (if c then (x >>= fun a => (pure (g a) : Outcome β) >>= f) else (pure y : Outcome β) >>= f) =
      .ok z) :
    ∃ b, ((∃ a, x = .ok a ∧ b = g a) ∨ b = y) ∧ f b = .ok z := by
  split at h
  · obtain ⟨a, ha, h⟩ := bind_ok h
    exact ⟨g a, .inl ⟨a, ha, rfl⟩, h⟩
  · exact ⟨y, .inr rfl, h⟩

/-- Every result of a list of computations comes from one of them. -/
theorem mem_mapM {f : α → Outcome β} {xs : List α} {ys : List β} (h : xs.mapM f = .ok ys) :
    ∀ y ∈ ys, ∃ x ∈ xs, f x = .ok y := by
  induction xs generalizing ys with
  | nil => cases h; simp
  | cons x xs ih =>
    rw [List.mapM_cons] at h
    obtain ⟨y, hy, h⟩ := bind_ok h
    obtain ⟨zs, hzs, h⟩ := bind_ok h
    cases h
    intro z hz
    rcases List.mem_cons.1 hz with rfl | hz
    · exact ⟨x, List.mem_cons_self, hy⟩
    · obtain ⟨x', hx', hz⟩ := ih hzs z hz
      exact ⟨x', List.mem_cons_of_mem _ hx', hz⟩

/-- A list of computations has one result for each of them, in their order. -/
theorem forall₂_mapM {f : α → Outcome β} {xs : List α} {ys : List β} (h : xs.mapM f = .ok ys) :
    List.Forall₂ (fun x y => f x = .ok y) xs ys := by
  induction xs generalizing ys with
  | nil => cases h; exact .nil
  | cons x xs ih =>
    rw [List.mapM_cons] at h
    obtain ⟨y, hy, h⟩ := bind_ok h
    obtain ⟨zs, hzs, h⟩ := bind_ok h
    cases h
    exact .cons hy (ih hzs)

/-- Every one of a list of computations has its result among all results. -/
theorem mapM_mem {f : α → Outcome β} {xs : List α} {ys : List β} (h : xs.mapM f = .ok ys) :
    ∀ x ∈ xs, ∃ y ∈ ys, f x = .ok y := by
  intro x hx
  obtain ⟨i, hi, rfl⟩ := List.getElem_of_mem hx
  have hpairs := List.forall₂_iff_get.1 (forall₂_mapM h)
  exact ⟨_, List.get_mem ys ⟨i, hpairs.1 ▸ hi⟩, hpairs.2 i hi (hpairs.1 ▸ hi)⟩

/-- A list of computations that all succeed. -/
theorem mapM_ok {f : α → Outcome β} {g : α → β} {xs : List α} (h : ∀ x ∈ xs, f x = .ok (g x)) :
    xs.mapM f = .ok (xs.map g) := by
  induction xs with
  | nil => rfl
  | cons x xs ih =>
    rw [List.mapM_cons, h x List.mem_cons_self, ih fun y hy => h y (List.mem_cons_of_mem _ hy)]
    rfl

/-- Computations in another order have the same results, in another order. -/
theorem mapM_perm {f : α → Outcome β} {xs xs' : List α} (hperm : xs.Perm xs') {ys : List β}
    (h : xs.mapM f = .ok ys) : ∃ ys', xs'.mapM f = .ok ys' ∧ ys.Perm ys' := by
  induction hperm generalizing ys with
  | nil => exact ⟨ys, h, .refl ys⟩
  | cons x _ ih =>
    rw [List.mapM_cons] at h
    obtain ⟨y, hy, h⟩ := bind_ok h
    obtain ⟨zs, hzs, h⟩ := bind_ok h
    cases h
    obtain ⟨zs', hzs', hzip⟩ := ih hzs
    refine ⟨y :: zs', ?_, hzip.cons y⟩
    rw [List.mapM_cons, hy, hzs']
    rfl
  | swap x x' xs =>
    rw [List.mapM_cons, List.mapM_cons] at h
    obtain ⟨y', hy', h⟩ := bind_ok h
    obtain ⟨zs, hzs, h⟩ := bind_ok h
    obtain ⟨y, hy, hzs⟩ := bind_ok hzs
    obtain ⟨ys, hys, hzs⟩ := bind_ok hzs
    cases hzs
    cases h
    refine ⟨y :: y' :: ys, ?_, .swap y y' ys⟩
    rw [List.mapM_cons, List.mapM_cons, hy, hy', hys]
    rfl
  | trans _ _ ih ih' =>
    obtain ⟨ys', hys', hfirst⟩ := ih h
    obtain ⟨ys'', hys'', hsecond⟩ := ih' hys'
    exact ⟨ys'', hys'', hfirst.trans hsecond⟩

/-- What holds of each result of a list of computations holds of all results together. -/
theorem mapM_all {f : α → Outcome β} {P : α → Prop} {Q : β → Prop} {xs : List α}
    (hxs : ∀ x ∈ xs, P x) (hf : ∀ x, P x → ∃ y, f x = .ok y ∧ Q y) :
    ∃ ys, xs.mapM f = .ok ys ∧ ∀ y ∈ ys, Q y := by
  induction xs with
  | nil => exact ⟨[], rfl, by simp⟩
  | cons x xs ih =>
    obtain ⟨hx, hxs⟩ := List.forall_mem_cons.1 hxs
    obtain ⟨y, hy, hQ⟩ := hf x hx
    obtain ⟨ys, hys, hQs⟩ := ih hxs
    refine ⟨y :: ys, ?_, List.forall_mem_cons.2 ⟨hQ, hQs⟩⟩
    rw [List.mapM_cons, hy, hys]
    rfl

/-- The results of a list of computations, when each result is known. -/
theorem mapM_inv {f : α → Outcome β} {P : α → Prop} {g : α → β} {xs : List α} {ys : List β}
    (h : xs.mapM f = .ok ys) (hf : ∀ x y, f x = .ok y → P x ∧ y = g x) :
    (∀ x ∈ xs, P x) ∧ ys = xs.map g := by
  induction xs generalizing ys with
  | nil => cases h; simp
  | cons x xs ih =>
    rw [List.mapM_cons] at h
    obtain ⟨y, hy, h⟩ := bind_ok h
    obtain ⟨zs, hzs, h⟩ := bind_ok h
    cases h
    obtain ⟨hP, hg⟩ := hf x y hy
    obtain ⟨hPs, hgs⟩ := ih hzs
    exact ⟨List.forall_mem_cons.2 ⟨hP, hPs⟩, by rw [List.map_cons, hg, hgs]⟩

/-- A fold to which each item adds a condition of its own. -/
theorem foldlM_iff {P : β → Prop} {Q : α → Prop} {f : β → α → Outcome β}
    (hf : ∀ b x b', f b x = .ok b' → (P b' ↔ P b ∧ Q x)) {xs : List α} {b b' : β}
    (h : xs.foldlM f b = .ok b') : P b' ↔ P b ∧ ∀ x ∈ xs, Q x := by
  induction xs generalizing b with
  | nil => cases h; simp
  | cons x xs ih =>
    rw [List.foldlM_cons] at h
    obtain ⟨c, hc, h⟩ := bind_ok h
    rw [ih h, hf b x c hc, List.forall_mem_cons, and_assoc]

/-- What each step of a fold keeps, the whole fold keeps. -/
theorem foldlM_keeps {P : β → Prop} {f : β → α → Outcome β} {xs : List α}
    (hf : ∀ b, ∀ x ∈ xs, ∀ b', f b x = .ok b' → P b → P b') {b b' : β} (h : xs.foldlM f b = .ok b')
    (hb : P b) : P b' := by
  induction xs generalizing b with
  | nil => cases h; exact hb
  | cons x xs ih =>
    rw [List.foldlM_cons] at h
    obtain ⟨c, hc, h⟩ := bind_ok h
    exact ih (fun b y hy => hf b y (List.mem_cons_of_mem _ hy)) h (hf b x List.mem_cons_self c hc hb)

/-- A fold whose steps all return, each of which carries on what the items before it have built. -/
theorem exists_foldlM {P : List α → β → Prop} {f : β → α → Outcome β} {xs : List α}
    (hf : ∀ before, ∀ x ∈ xs, ∀ b, P before b → ∃ b', f b x = .ok b' ∧ P (before ++ [x]) b') {b : β}
    (hb : P [] b) : ∃ b', xs.foldlM f b = .ok b' ∧ P xs b' := by
  suffices hrest : ∀ rest before b, before ++ rest = xs → P before b →
      ∃ b', rest.foldlM f b = .ok b' ∧ P xs b' from hrest xs [] b rfl hb
  intro rest
  induction rest with
  | nil =>
    rintro before b rfl hb
    exact ⟨b, rfl, by rwa [List.append_nil]⟩
  | cons x rest ih =>
    intro before b hxs hb
    obtain ⟨c, hc, hPc⟩ := hf before x (by simp [← hxs]) b hb
    obtain ⟨b', hb', hP⟩ := ih (before ++ [x]) c (by simp [hxs]) hPc
    exact ⟨b', by rw [List.foldlM_cons, hc, ok_bind, hb'], hP⟩

theorem mem_filterAuxM {f : α → Outcome Bool} {xs acc ys : List α}
    (h : xs.filterAuxM f acc = .ok ys) : ∀ y ∈ ys, y ∈ xs ∨ y ∈ acc := by
  induction xs generalizing acc with
  | nil => cases h; exact fun y hy => .inr hy
  | cons x xs ih =>
    obtain ⟨b, -, h⟩ := bind_ok h
    intro y hy
    rcases ih h y hy with hy | hy
    · exact .inl (List.mem_cons_of_mem _ hy)
    · cases b with
      | false => exact .inr hy
      | true =>
        rcases List.mem_cons.1 hy with rfl | hy
        · exact .inl List.mem_cons_self
        · exact .inr hy

theorem mem_filterM {f : α → Outcome Bool} {xs ys : List α} (h : xs.filterM f = .ok ys) :
    ∀ y ∈ ys, y ∈ xs := by
  obtain ⟨zs, hzs, h⟩ := bind_ok h
  cases h
  intro y hy
  exact (mem_filterAuxM hzs y (List.mem_reverse.1 hy)).resolve_right (by simp)

/-- A selection by tests whose results are known. -/
theorem filterM_eq {f : α → Outcome Bool} {g : α → Bool} {xs ys : List α}
    (h : xs.filterM f = .ok ys) (hf : ∀ x b, f x = .ok b → b = g x) : ys = xs.filter g := by
  have haux : ∀ acc zs, xs.filterAuxM f acc = .ok zs → zs = (xs.filter g).reverse ++ acc := by
    clear h
    induction xs with
    | nil =>
      intro acc zs h
      cases h
      rfl
    | cons x xs ih =>
      intro acc zs h
      obtain ⟨b, hb, h⟩ := bind_ok h
      rw [ih _ zs h, List.filter_cons, hf x b hb]
      cases g x <;> simp
  obtain ⟨zs, hzs, h⟩ := bind_ok h
  cases h
  rw [haux [] zs hzs, List.append_nil, List.reverse_reverse]

/-- In a selection that returns, all tests do. -/
theorem filterM_each {f : α → Outcome Bool} {xs ys : List α} (h : xs.filterM f = .ok ys) :
    ∀ x ∈ xs, ∃ b, f x = .ok b := by
  have haux : ∀ acc zs, xs.filterAuxM f acc = .ok zs → ∀ x ∈ xs, ∃ b, f x = .ok b := by
    clear h
    induction xs with
    | nil => exact fun _ _ _ x hx => absurd hx List.not_mem_nil
    | cons x xs ih =>
      intro acc zs h
      obtain ⟨b, hb, h⟩ := bind_ok h
      exact List.forall_mem_cons.2 ⟨⟨b, hb⟩, ih _ zs h⟩
  obtain ⟨zs, hzs, -⟩ := bind_ok h
  exact haux [] zs hzs

/-- A computation that is known to return something of which something is known. -/
theorem ok_of_toOption {x : Outcome α} {f : α → β} {b : β}
    (h : x.toOption.map f = some b) : ∃ a, x = .ok a ∧ f a = b := by
  cases x with
  | error e => cases h
  | ok a => exact ⟨a, rfl, Option.some.inj h⟩

/-- A fold that computes something of each item and then only adds it. -/
theorem foldlM_map {γ : Type} (f : α → Outcome β) (add : γ → β → γ) (xs : List α) (c : γ) :
    xs.foldlM (fun c x => add c <$> f x) c = (fun ys => ys.foldl add c) <$> xs.mapM f := by
  induction xs generalizing c with
  | nil => rfl
  | cons x xs ih =>
    rw [List.foldlM_cons, List.mapM_cons]
    cases f x with
    | error e => rfl
    | ok y =>
      show xs.foldlM _ (add c y) = _
      rw [ih]
      cases xs.mapM f <;> rfl

end Outcome

/-! ## Runs -/

namespace Run

variable {α β : Type}

/-- The result of a run that other notices came before, with all notices in order. -/
def after (r : Run α) (before : List Notice) : Outcome α × List Notice := (ExceptT.run r).run before

theorem exec_eq (r : Run α) : r.exec = r.after [] := rfl

@[simp] theorem after_pure (a : α) (ns : List Notice) : (pure a : Run α).after ns = (.ok a, ns) := rfl

@[simp] theorem lift_ok (a : α) : (liftM (.ok a : Outcome α) : Run α) = pure a := rfl

@[simp] theorem after_lift (o : Outcome α) (ns : List Notice) :
    (liftM o : Run α).after ns = (o, ns) := rfl

@[simp] theorem after_note (n : Notice) (ns : List Notice) :
    (note n).after ns = (.ok (), ns ++ [n]) := rfl

theorem after_bind (r : Run α) (f : α → Run β) (ns : List Notice) :
    (r >>= f).after ns = match r.after ns with
      | (.ok a, ns') => (f a).after ns'
      | (.error e, ns') => (.error e, ns') := by
  unfold after
  rw [ExceptT.run_bind, StateT.run_bind]
  cases (ExceptT.run r).run ns with
  | mk result ns' => cases result <;> rfl

@[simp] theorem after_note_bind (n : Notice) (f : Unit → Run β) (ns : List Notice) :
    (note n >>= f).after ns = (f ()).after (ns ++ [n]) := rfl

theorem after_bind_ok {r : Run α} {f : α → Run β} {b : β} {ns ms : List Notice}
    (h : (r >>= f).after ns = (.ok b, ms)) :
    ∃ a ns', r.after ns = (.ok a, ns') ∧ (f a).after ns' = (.ok b, ms) := by
  rw [after_bind] at h
  split at h
  · exact ⟨_, _, by assumption, h⟩
  · cases h

theorem after_ok_bind {r : Run α} {f : α → Run β} {a : α} {ns ms : List Notice}
    (h : r.after ns = (.ok a, ms)) : (r >>= f).after ns = (f a).after ms := by
  rw [after_bind, h]

theorem after_lift_bind_ok {o : Outcome α} {f : α → Run β} {b : β} {ns ms : List Notice}
    (h : ((liftM o : Run α) >>= f).after ns = (.ok b, ms)) :
    ∃ a, o = .ok a ∧ (f a).after ns = (.ok b, ms) := by
  obtain ⟨a, ns', ha, h⟩ := after_bind_ok h
  cases ha
  exact ⟨a, rfl, h⟩

/-- What holds after a fold over all items, when each item carries it on from those before it. -/
theorem foldlM_ok {P : List α → β → Prop} {f : β → α → Run β} {xs : List α}
    (hf : ∀ before x b b' ns ms, x ∈ xs → P before b → (f b x).after ns = (.ok b', ms) →
      P (before ++ [x]) b') {b b' : β} {ns ms : List Notice} (hb : P [] b)
    (h : (xs.foldlM f b).after ns = (.ok b', ms)) : P xs b' := by
  suffices hrest : ∀ rest before b ns, before ++ rest = xs → P before b →
      (rest.foldlM f b).after ns = (.ok b', ms) → P xs b' from hrest xs [] b ns rfl hb h
  intro rest
  induction rest with
  | nil =>
    intro before b ns hxs hb h
    rw [List.append_nil] at hxs
    cases h
    exact hxs ▸ hb
  | cons x rest ih =>
    intro before b ns hxs hb h
    rw [List.foldlM_cons] at h
    obtain ⟨c, ns', hc, h⟩ := after_bind_ok h
    have hmem : x ∈ xs := by rw [← hxs]; simp
    exact ih (before ++ [x]) c ns' (by simp [hxs]) (hf before x b c ns ns' hmem hb hc) h

/-- A list of runs that all return, each with notices of its own. -/
theorem after_mapM {f : α → Run β} {g : α → β} {notices : α → List Notice} {xs : List α}
    (h : ∀ x ∈ xs, ∀ ns, (f x).after ns = (.ok (g x), ns ++ notices x)) (ns : List Notice) :
    (xs.mapM f).after ns = (.ok (xs.map g), ns ++ xs.flatMap notices) := by
  induction xs generalizing ns with
  | nil => simp
  | cons x xs ih =>
    obtain ⟨hx, hxs⟩ := List.forall_mem_cons.1 h
    rw [List.mapM_cons, after_bind, hx]
    simp only
    rw [after_bind, ih hxs]
    simp [List.flatMap_cons]

/-- A run that may leave a notice before it goes on. -/
theorem after_ite_note {c : Prop} [Decidable c] {n : Notice} {f : Unit → Run α}
    {ns : List Notice} {x : Outcome α × List Notice}
    (h : (if c then note n >>= f else f ()).after ns = x) : ∃ ns', (f ()).after ns' = x := by
  split at h
  · exact ⟨_, h⟩
  · exact ⟨_, h⟩

/-- A run that always returns, whatever notices came before, with a result of some kind. -/
def Gives (r : Run α) (P : α → Prop) : Prop := ∀ ns, ∃ a ms, r.after ns = (.ok a, ms) ∧ P a

section Gives

variable {P : α → Prop} {Q : β → Prop}

theorem gives_pure {a : α} (h : P a) : (pure a : Run α).Gives P := fun ns => ⟨a, ns, rfl, h⟩

theorem Gives.bind {r : Run α} {f : α → Run β} (hr : r.Gives P) (hf : ∀ a, P a → (f a).Gives Q) :
    (r >>= f).Gives Q := by
  intro ns
  obtain ⟨a, ms, ha, hP⟩ := hr ns
  obtain ⟨b, ms', hb, hQ⟩ := hf a hP ms
  exact ⟨b, ms', by rw [after_bind, ha]; exact hb, hQ⟩

theorem Gives.mono {r : Run α} {P' : α → Prop} (hr : r.Gives P) (h : ∀ a, P a → P' a) :
    r.Gives P' := by
  intro ns
  obtain ⟨a, ms, ha, hP⟩ := hr ns
  exact ⟨a, ms, ha, h a hP⟩

theorem gives_lift_bind {o : Outcome α} {a : α} {f : α → Run β} (ho : o = .ok a)
    (hf : (f a).Gives Q) : ((liftM o : Run α) >>= f).Gives Q := by
  subst ho
  rwa [lift_ok, pure_bind]

/-- A fold whose steps all return, each of which carries on what the items before it have built. -/
theorem gives_foldlM {P : List α → β → Prop} {f : β → α → Run β} {xs : List α}
    (hf : ∀ before, ∀ x ∈ xs, ∀ b, P before b → (f b x).Gives (P (before ++ [x]))) {b : β}
    (hb : P [] b) : (xs.foldlM f b).Gives (P xs) := by
  suffices hrest : ∀ rest before b, before ++ rest = xs → P before b →
      (rest.foldlM f b).Gives (P xs) from hrest xs [] b rfl hb
  intro rest
  induction rest with
  | nil =>
    rintro before b rfl hb
    exact gives_pure (by rwa [List.append_nil])
  | cons x rest ih =>
    intro before b hxs hb
    rw [List.foldlM_cons]
    exact (hf before x (by simp [← hxs]) b hb).bind fun c hc => ih (before ++ [x]) c (by simp [hxs]) hc

theorem gives_mapM {R : α → β → Prop} {f : α → Run β} {xs : List α}
    (hf : ∀ x ∈ xs, (f x).Gives (R x)) : (xs.mapM f).Gives (List.Forall₂ R xs) := by
  induction xs with
  | nil => exact gives_pure .nil
  | cons x xs ih =>
    obtain ⟨hx, hxs⟩ := List.forall_mem_cons.1 hf
    rw [List.mapM_cons]
    exact hx.bind fun y hy => (ih hxs).bind fun ys hys => gives_pure (.cons hy hys)

end Gives

/-! ## Runs that do not look back -/

section Yields

variable {r : Run α} {o : Outcome α}

/-- A run that has one result, whatever notices came before. -/
def Yields (r : Run α) (o : Outcome α) : Prop := ∀ ns, (r.after ns).1 = o

theorem yields_pure (a : α) : (pure a : Run α).Yields (.ok a) := fun _ => rfl

/-- What follows a result that is made of another one. -/
theorem Yields.map_bind {γ : Type} {o : Outcome γ} {g : γ → α} {f : α → Run β} {p : γ → Outcome β}
    (hr : r.Yields (g <$> o)) (hf : ∀ c, (f (g c)).Yields (p c)) : (r >>= f).Yields (o >>= p) := by
  intro ns
  rw [after_bind]
  have hns := hr ns
  cases hrun : r.after ns with
  | mk result ms =>
    rw [hrun] at hns
    cases o with
    | ok c =>
      obtain rfl : result = .ok (g c) := hns
      exact hf c ms
    | error e =>
      obtain rfl : result = .error e := hns
      rfl

theorem Yields.bind {f : α → Run β} {p : α → Outcome β} (hr : r.Yields o) (hf : ∀ a, (f a).Yields (p a)) :
    (r >>= f).Yields (o >>= p) := by
  rw [← id_map o] at hr
  exact hr.map_bind hf

theorem yields_lift_bind {f : α → Run β} {p : α → Outcome β} (hf : ∀ a, o = .ok a → (f a).Yields (p a)) :
    ((liftM o : Run α) >>= f).Yields (o >>= p) := by
  cases o with
  | ok a => exact hf a rfl
  | error e => exact fun _ => rfl

theorem yields_foldlM {f : β → α → Run β} {p : β → α → Outcome β} (hf : ∀ b x, (f b x).Yields (p b x))
    (xs : List α) (b : β) : (xs.foldlM f b).Yields (xs.foldlM p b) := by
  induction xs generalizing b with
  | nil => exact yields_pure b
  | cons x xs ih =>
    rw [List.foldlM_cons, List.foldlM_cons]
    exact (hf b x).bind ih

/-- Two runs that have the same result, whatever notices came before each. -/
def Alike (r r' : Run α) : Prop := ∀ ns ns', (r.after ns).1 = (r'.after ns').1

theorem alike_pure (a : α) : (pure a : Run α).Alike (pure a) := fun _ _ => rfl

theorem Alike.bind {r' : Run α} {f f' : α → Run β} (hr : r.Alike r') (hf : ∀ a, (f a).Alike (f' a)) :
    (r >>= f).Alike (r' >>= f') := by
  intro ns ns'
  rw [after_bind, after_bind]
  have hns := hr ns ns'
  cases hrun : r.after ns with
  | mk result ms =>
    cases hrun' : r'.after ns' with
    | mk result' ms' =>
      rw [hrun, hrun'] at hns
      obtain rfl : result = result' := hns
      cases result with
      | ok a => exact hf a ms ms'
      | error e => rfl

theorem alike_lift_bind {f f' : α → Run β} (hf : ∀ a, (f a).Alike (f' a)) :
    ((liftM o : Run α) >>= f).Alike ((liftM o : Run α) >>= f') :=
  Alike.bind (fun _ _ => rfl) hf

theorem alike_note_bind (n n' : Notice) {f f' : Unit → Run β} (hf : (f ()).Alike (f' ())) :
    (note n >>= f).Alike (note n' >>= f') := fun ns ns' => hf (ns ++ [n]) (ns' ++ [n'])

theorem Alike.yields {r' : Run α} (h : r.Alike r') : r.Yields r'.exec.1 := fun ns => h ns []

end Yields

end Run

end Maquette
