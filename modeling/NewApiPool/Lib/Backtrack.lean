import Mathlib.Data.List.Basic

/-!
# Matching with backtracking

A regular expression is tried at a place of a text, in some order of the choices that it leaves:
`*` and `?` first take as much as they can. A `Matcher` lists all the ways in which this succeeds,
in that order; the result is the first one (`Backtrack.exec` also looks for the place).

What all the ways have in common is said by lemmas on membership, such as `Backtrack.mem_many`, and
the first one is found by lemmas such as `Backtrack.head?_bind`.
-/

namespace Backtrack

/-- The ways to match at the start of a text: what is captured, and what is left of the text. -/
def Matcher (α : Type) : Type := List Char → List (α × List Char)

instance instMonadMatcher : Monad Matcher where
  pure a := fun s => [(a, s)]
  bind m f := fun s => (m s).flatMap fun way => f way.1 way.2

variable {α β : Type} {m m' : Matcher α} {f : α → Matcher β} {a a' : α} {b : β} {p : Char → Bool}
  {c : Char} {r r' s t u : List Char}

/-! ### The pieces of an expression -/

def lit (t : List Char) : Matcher Unit := fun s =>
  if t.isPrefixOf s then [((), s.drop t.length)] else []

/-- `[p]*` -/
def many (p : Char → Bool) : Matcher (List Char)
  | [] => [([], [])]
  | c :: s =>
    if p c then ((many p s).map fun way => (c :: way.1, way.2)) ++ [([], c :: s)]
    else [([], c :: s)]

/-- `[p]+` -/
def many1 (p : Char → Bool) : Matcher (List Char)
  | [] => []
  | c :: s => if p c then (many p s).map fun way => (c :: way.1, way.2) else []

/-- The texts of some values, as alternatives. -/
def oneOf (text : α → List Char) (xs : List α) : Matcher α := fun s =>
  xs.flatMap fun x => (lit (text x) s).map fun way => (x, way.2)

/-- `(?:m)?` -/
def optional (m : Matcher α) : Matcher (Option α) := fun s =>
  ((m s).map fun way => (some way.1, way.2)) ++ [(none, s)]

/-- `(?:m)*`, at most `n` times. -/
def times (m : Matcher α) : ℕ → Matcher (List α)
  | 0 => fun s => [([], s)]
  | n + 1 => fun s => ((m s).flatMap fun way => (times m n way.2).map fun ways =>
      (way.1 :: ways.1, ways.2)) ++ [([], s)]

/-- `(?:m)*`, where `m` matches no empty text. -/
def star (m : Matcher α) : Matcher (List α) := fun s => times m s.length s

/-- `(m)`: the text that is matched. -/
def captured (m : Matcher α) : Matcher (List Char) := fun s =>
  (m s).map fun way => (s.take (s.length - way.2.length), way.2)

/-- `^m$` -/
def matchWhole (m : Matcher α) (s : List Char) : Option α :=
  ((m s).find? fun way => way.2.isEmpty).map Prod.fst

/-- The first place at which there is a match: what is skipped, and the match. -/
def exec (m : Matcher α) : List Char → Option (List Char × α × List Char)
  | [] => (m []).head?.map fun way => ([], way)
  | c :: s =>
    match (m (c :: s)).head? with
    | some way => some ([], way)
    | none => (exec m s).map fun found => (c :: found.1, found.2)

/-- One match after the other, at most `n`. -/
def execAll (m : Matcher α) : ℕ → List Char → List (List Char × α × List Char)
  | 0, _ => []
  | n + 1, s =>
    match exec m s with
    | none => []
    | some found => found :: execAll m n found.2.2

/-- `s.split(m)`, with at most `n` separators. -/
def split (m : Matcher α) : ℕ → List Char → List (List Char)
  | 0, s => [s]
  | n + 1, s =>
    match exec m s with
    | none => [s]
    | some found => found.1 :: split m n found.2.2

/-! ### All the ways -/

@[simp] theorem mem_pure {x : α × List Char} : x ∈ (pure a : Matcher α) s ↔ x = (a, s) :=
  List.mem_singleton

@[simp] theorem mem_bind {x : β × List Char} :
    x ∈ (m >>= f) s ↔ ∃ a r, (a, r) ∈ m s ∧ x ∈ f a r := by
  refine List.mem_flatMap.trans ⟨?_, ?_⟩
  · rintro ⟨way, hway, hx⟩
    exact ⟨way.1, way.2, hway, hx⟩
  · rintro ⟨a, r, hway, hx⟩
    exact ⟨(a, r), hway, hx⟩

@[simp] theorem mem_lit {x : Unit} : (x, r) ∈ lit t s ↔ s = t ++ r := by
  rw [lit]
  constructor
  · intro h
    split_ifs at h with hpre
    · obtain ⟨u, rfl⟩ := List.isPrefixOf_iff_prefix.1 hpre
      rw [List.mem_singleton, List.drop_left] at h
      rw [(Prod.mk.inj h).2]
    · exact absurd h List.not_mem_nil
  · rintro rfl
    rw [if_pos (List.isPrefixOf_iff_prefix.2 (List.prefix_append t r)), List.drop_left]
    exact List.mem_singleton_self _

@[simp] theorem mem_many : (u, r) ∈ many p s ↔ s = u ++ r ∧ ∀ c ∈ u, p c = true := by
  induction s generalizing u with
  | nil =>
    rw [many, List.mem_singleton, Prod.mk.injEq]
    constructor
    · rintro ⟨rfl, rfl⟩
      exact ⟨rfl, fun c hc => absurd hc List.not_mem_nil⟩
    · rintro ⟨h, -⟩
      exact List.append_eq_nil_iff.1 h.symm
  | cons c s ih =>
    rw [many]
    cases u with
    | nil =>
      have hnil : ([], r) = (([] : List Char), c :: s) ↔ c :: s = r := by
        rw [Prod.mk.injEq, and_iff_right rfl, eq_comm]
      have hmap : ([], r) ∉ (many p s).map fun way => (c :: way.1, way.2) := by
        intro h
        obtain ⟨way, -, heq⟩ := List.mem_map.1 h
        exact List.cons_ne_nil _ _ (Prod.mk.inj heq).1
      rw [List.nil_append, and_iff_left fun d hd => absurd hd List.not_mem_nil, ← hnil]
      split_ifs
      · rw [List.mem_append, or_iff_right hmap, List.mem_singleton]
      · rw [List.mem_singleton]
    | cons d u =>
      split_ifs with hc
      · simp only [List.mem_append, List.mem_map, Prod.mk.injEq, List.mem_singleton, reduceCtorEq,
          false_and, or_false, List.cons.injEq, List.cons_append, List.forall_mem_cons]
        constructor
        · rintro ⟨way, hway, ⟨rfl, rfl⟩, rfl⟩
          obtain ⟨rfl, hall⟩ := ih.1 hway
          exact ⟨⟨rfl, rfl⟩, hc, hall⟩
        · rintro ⟨⟨rfl, rfl⟩, -, hall⟩
          exact ⟨(u, r), ih.2 ⟨rfl, hall⟩, ⟨rfl, rfl⟩, rfl⟩
      · refine iff_of_false (fun h => ?_) fun h => ?_
        · exact absurd (Prod.mk.inj (List.mem_singleton.1 h)).1 (List.cons_ne_nil d u)
        · obtain ⟨heq, hall⟩ := h
          exact hc ((List.cons.inj heq).1 ▸ hall d List.mem_cons_self)

@[simp] theorem mem_many1 :
    (u, r) ∈ many1 p s ↔ s = u ++ r ∧ u ≠ [] ∧ ∀ c ∈ u, p c = true := by
  cases s with
  | nil =>
    refine iff_of_false List.not_mem_nil ?_
    rintro ⟨h, hne, -⟩
    exact hne (List.append_eq_nil_iff.1 h.symm).1
  | cons c s =>
    rw [many1]
    constructor
    · intro h
      split_ifs at h with hc
      · obtain ⟨way, hway, heq⟩ := List.mem_map.1 h
        obtain ⟨rfl, rfl⟩ := Prod.mk.inj heq
        obtain ⟨rfl, hall⟩ := mem_many.1 hway
        exact ⟨rfl, List.cons_ne_nil _ _, List.forall_mem_cons.2 ⟨hc, hall⟩⟩
      · exact absurd h List.not_mem_nil
    · rintro ⟨heq, hne, hall⟩
      obtain ⟨d, u, rfl⟩ := List.exists_cons_of_ne_nil hne
      obtain ⟨rfl, rfl⟩ := List.cons.inj heq
      obtain ⟨hc, hall⟩ := List.forall_mem_cons.1 hall
      rw [if_pos hc]
      exact List.mem_map.2 ⟨(u, r), mem_many.2 ⟨rfl, hall⟩, rfl⟩

@[simp] theorem mem_oneOf {text : α → List Char} {xs : List α} :
    (a, r) ∈ oneOf text xs s ↔ a ∈ xs ∧ s = text a ++ r := by
  rw [oneOf, List.mem_flatMap]
  constructor
  · rintro ⟨x, hx, h⟩
    obtain ⟨way, hway, heq⟩ := List.mem_map.1 h
    obtain ⟨rfl, rfl⟩ := Prod.mk.inj heq
    exact ⟨hx, mem_lit.1 hway⟩
  · rintro ⟨ha, hs⟩
    exact ⟨a, ha, List.mem_map.2 ⟨((), r), mem_lit.2 hs, rfl⟩⟩

@[simp] theorem mem_optional {x : Option α} :
    (x, r) ∈ optional m s ↔ (∃ a, x = some a ∧ (a, r) ∈ m s) ∨ x = none ∧ r = s := by
  rw [optional, List.mem_append, List.mem_singleton, Prod.mk.injEq]
  refine or_congr_left ⟨?_, ?_⟩
  · intro h
    obtain ⟨way, hway, heq⟩ := List.mem_map.1 h
    obtain ⟨rfl, rfl⟩ := Prod.mk.inj heq
    exact ⟨way.1, rfl, hway⟩
  · rintro ⟨a, rfl, ha⟩
    exact List.mem_map.2 ⟨(a, r), ha, rfl⟩

theorem mem_times_succ {n : ℕ} {as : List α} :
    (as, r) ∈ times m (n + 1) s ↔
      (∃ a t as', (a, t) ∈ m s ∧ (as', r) ∈ times m n t ∧ as = a :: as') ∨ as = [] ∧ r = s := by
  rw [times, List.mem_append, List.mem_singleton, Prod.mk.injEq]
  refine or_congr_left ⟨?_, ?_⟩
  · intro h
    obtain ⟨way, hway, hrest⟩ := List.mem_flatMap.1 h
    obtain ⟨ways, hways, heq⟩ := List.mem_map.1 hrest
    obtain ⟨rfl, rfl⟩ := Prod.mk.inj heq
    exact ⟨way.1, way.2, ways.1, hway, hways, rfl⟩
  · rintro ⟨a, t, as', ha, has, rfl⟩
    exact List.mem_flatMap.2 ⟨(a, t), ha, List.mem_map.2 ⟨(as', r), has, rfl⟩⟩

theorem mem_captured :
    (u, r) ∈ captured m s ↔ ∃ a, (a, r) ∈ m s ∧ u = s.take (s.length - r.length) := by
  rw [captured, List.mem_map]
  constructor
  · rintro ⟨way, hway, heq⟩
    obtain ⟨rfl, rfl⟩ := Prod.mk.inj heq
    exact ⟨way.1, hway, rfl⟩
  · rintro ⟨a, ha, rfl⟩
    exact ⟨(a, r), ha, rfl⟩

/-- The text that is matched, where what is left is the rest of it. -/
theorem take_append (u r : List Char) : (u ++ r).take ((u ++ r).length - r.length) = u := by
  rw [List.length_append, Nat.add_sub_cancel, List.take_left]

theorem mem_of_matchWhole (h : matchWhole m s = some a) : (a, []) ∈ m s := by
  obtain ⟨way, hfind, rfl⟩ := Option.map_eq_some_iff.1 h
  have hempty : way.2 = [] := by simpa using List.find?_some hfind
  exact hempty ▸ List.mem_of_find?_eq_some hfind

/-- A match at the first place: what is skipped stands before it. -/
theorem mem_of_exec (h : exec m s = some (u, a, r)) : ∃ t, s = u ++ t ∧ (a, r) ∈ m t := by
  induction s generalizing u with
  | nil =>
    obtain ⟨way, hway, heq⟩ := Option.map_eq_some_iff.1 h
    obtain ⟨rfl, rfl⟩ := Prod.mk.inj heq
    exact ⟨[], rfl, List.mem_of_mem_head? hway⟩
  | cons c s ih =>
    rw [exec] at h
    cases hhead : (m (c :: s)).head? with
    | some way =>
      rw [hhead] at h
      obtain ⟨rfl, rfl⟩ := Prod.mk.inj (Option.some.inj h)
      exact ⟨c :: s, rfl, List.mem_of_mem_head? hhead⟩
    | none =>
      rw [hhead] at h
      obtain ⟨found, hfound, heq⟩ := Option.map_eq_some_iff.1 h
      obtain ⟨rfl, hrest⟩ := Prod.mk.inj heq
      obtain ⟨t, rfl, ht⟩ := ih (u := found.1) (by rw [hfound, ← hrest])
      exact ⟨t, rfl, ht⟩

/-- Matches one after the other, with text before each that is skipped. -/
inductive Runs (m : Matcher α) : List Char → List (List Char × α × List Char) → Prop
  | nil (s : List Char) : Runs m s []
  | cons {u : List Char} {a : α} {r t : List Char} {founds : List (List Char × α × List Char)}
    (h : (a, r) ∈ m t) (hrest : Runs m r founds) : Runs m (u ++ t) ((u, a, r) :: founds)

theorem runs_execAll (m : Matcher α) (n : ℕ) (s : List Char) : Runs m s (execAll m n s) := by
  induction n generalizing s with
  | zero => exact .nil s
  | succ n ih =>
    rw [execAll]
    cases hexec : exec m s with
    | none => exact .nil s
    | some found =>
      obtain ⟨t, rfl, ht⟩ := mem_of_exec hexec
      exact .cons ht (ih found.2.2)

/-! ### The first way -/

theorem head?_pure : ((pure a : Matcher α) s).head? = some (a, s) := rfl

/-- **The first way of all**, if what follows the first way of the first part succeeds. -/
theorem head?_bind (h : (m s).head? = some (a, r)) (hf : (f a r).head? = some (b, t)) :
    ((m >>= f) s).head? = some (b, t) := by
  obtain ⟨ways, hways⟩ := List.head?_eq_some_iff.1 h
  change ((m s).flatMap fun way => f way.1 way.2).head? = _
  rw [hways, List.flatMap_cons, List.head?_append, hf]
  rfl

theorem bind_eq_nil (h : m s = []) : (m >>= f) s = [] := by
  change ((m s).flatMap fun way => f way.1 way.2) = _
  rw [h, List.flatMap_nil]

theorem head?_lit : (lit t (t ++ r)).head? = some ((), r) := by
  rw [lit, if_pos (List.isPrefixOf_iff_prefix.2 (List.prefix_append t r)), List.drop_left]
  rfl

theorem lit_eq_nil (h : s.head? ≠ some c) : lit (c :: t) s = [] := by
  rw [lit, if_neg]
  intro hpre
  obtain ⟨u, rfl⟩ := List.isPrefixOf_iff_prefix.1 hpre
  exact h rfl

theorem head?_oneOf_bind {text : α → List Char} {pre post : List α}
    (hpre : ∀ x ∈ pre, ∀ t, text a ++ r = text x ++ t → f x t = [])
    (hf : (f a r).head? = some (b, t)) :
    ((oneOf text (pre ++ a :: post) >>= f) (text a ++ r)).head? = some (b, t) := by
  have hbind : ∀ xs : List α, (oneOf text xs >>= f) (text a ++ r) =
      xs.flatMap fun x => (lit (text x) (text a ++ r)).flatMap fun way => f x way.2 := by
    intro xs
    change ((oneOf text xs) (text a ++ r)).flatMap (fun way => f way.1 way.2) = _
    rw [oneOf, List.flatMap_assoc]
    simp only [List.flatMap_map]
  have hnil : pre.flatMap (fun x =>
      (lit (text x) (text a ++ r)).flatMap fun way => f x way.2) = [] := by
    refine List.flatMap_eq_nil_iff.2 fun x hx => List.flatMap_eq_nil_iff.2 fun way hway => ?_
    have hlit : (way.1, way.2) ∈ lit (text x) (text a ++ r) := hway
    exact hpre x hx way.2 (mem_lit.1 hlit)
  obtain ⟨ways, hways⟩ := List.head?_eq_some_iff.1 (head?_lit (t := text a) (r := r))
  rw [hbind, List.flatMap_append, hnil, List.nil_append, List.flatMap_cons, List.head?_append,
    hways, List.flatMap_cons, List.head?_append, hf]
  rfl

theorem head?_many (hu : ∀ c ∈ u, p c = true) (hr : ∀ c ∈ r.head?, p c = false) :
    (many p (u ++ r)).head? = some (u, r) := by
  induction u with
  | nil =>
    cases r with
    | nil => rfl
    | cons c r => rw [List.nil_append, many, if_neg (Bool.eq_false_iff.1 (hr c rfl))]; rfl
  | cons c u ih =>
    obtain ⟨hc, hu⟩ := List.forall_mem_cons.1 hu
    rw [List.cons_append, many, if_pos hc, List.head?_append, List.head?_map, ih hu]
    rfl

theorem head?_many1 (hne : u ≠ []) (hu : ∀ c ∈ u, p c = true) (hr : ∀ c ∈ r.head?, p c = false) :
    (many1 p (u ++ r)).head? = some (u, r) := by
  obtain ⟨c, u, rfl⟩ := List.exists_cons_of_ne_nil hne
  obtain ⟨hc, hu⟩ := List.forall_mem_cons.1 hu
  rw [List.cons_append, many1, if_pos hc, List.head?_map, head?_many hu hr]
  rfl

theorem head?_optional (h : (m s).head? = some (a, r)) :
    (optional m s).head? = some (some a, r) := by
  rw [optional, List.head?_append, List.head?_map, h]
  rfl

theorem optional_of_nil (h : m s = []) : optional m s = [(none, s)] := by
  rw [optional, h]
  rfl

theorem head?_times_zero {n : ℕ} (h : m s = []) : (times m n s).head? = some ([], s) := by
  cases n with
  | zero => rfl
  | succ n =>
    change ((m s).flatMap _ ++ [([], s)]).head? = _
    rw [h]
    rfl

/-- **Once more**, as often as it is possible. -/
theorem head?_times_succ {n : ℕ} {as : List α} (h : (m s).head? = some (a, r))
    (hrest : (times m n r).head? = some (as, t)) :
    (times m (n + 1) s).head? = some (a :: as, t) := by
  obtain ⟨ways, hways⟩ := List.head?_eq_some_iff.1 h
  change ((m s).flatMap _ ++ [([], s)]).head? = _
  rw [hways, List.flatMap_cons, List.head?_append, List.head?_append, List.head?_map, hrest]
  rfl

theorem head?_captured (h : (m (u ++ r)).head? = some (a, r)) :
    (captured m (u ++ r)).head? = some (u, r) := by
  rw [captured, List.head?_map, h]
  exact congrArg some (Prod.ext (take_append u r) rfl)

theorem matchWhole_of_head? (h : (m s).head? = some (a, [])) : matchWhole m s = some a := by
  obtain ⟨ways, hways⟩ := List.head?_eq_some_iff.1 h
  rw [matchWhole, hways, List.find?_cons_of_pos rfl]
  rfl

theorem matchWhole_of_nil (h : m s = []) : matchWhole m s = none := by
  rw [matchWhole, h]
  rfl

theorem exec_of_head? (h : (m s).head? = some (a, r)) : exec m s = some ([], a, r) := by
  cases s with
  | nil => rw [exec, h]; rfl
  | cons c s => rw [exec, h]

theorem exec_cons (h : m (c :: s) = []) :
    exec m (c :: s) = (exec m s).map fun found => (c :: found.1, found.2) := by
  rw [exec, h]
  rfl

/-- **Text without a match** is skipped. -/
theorem exec_append (h : ∀ v, v <:+ u → v ≠ [] → m (v ++ s) = []) :
    exec m (u ++ s) = (exec m s).map fun found => (u ++ found.1, found.2) := by
  induction u with
  | nil =>
    cases hexec : exec m s with
    | none => rw [List.nil_append, hexec]; rfl
    | some found => rw [List.nil_append, hexec]; rfl
  | cons c u ih =>
    have hnone : m (c :: (u ++ s)) = [] := h (c :: u) List.suffix_rfl (List.cons_ne_nil c u)
    rw [List.cons_append, exec_cons hnone, ih fun v hv => h v (hv.trans (List.suffix_cons c u)),
      Option.map_map]
    rfl

end Backtrack
