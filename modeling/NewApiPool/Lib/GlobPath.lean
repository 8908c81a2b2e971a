import Mathlib.Data.List.Basic
import Mathlib.Algebra.GroupWithZero.Nat
import Mathlib.Algebra.Order.BigOperators.Group.List
import Mathlib.Algebra.Order.Group.Nat
import Mathlib.Data.List.Forall2
import Mathlib.Data.List.Infix

/-!
# Paths with escapes and patterns

A path is a text of steps with dots between them. In a step, `*` stands for any characters and `?`
for one, and a character behind a backslash for itself. Names that were put together to a path with
nothing escaped may be read differently. Where a path has as many steps as it was put together from,
and each of them fits the name it came from, it was read name by name
(`GlobPath.read_eq_of_fits`): a dot that is read as another character is one too many for the steps
to fit.
-/

namespace GlobPath

/-- What a step is made of. -/
inductive Token
  | char (c : Char)
  | any
  | one
  deriving DecidableEq

abbrev Step := List Token

/-- A character that is not escaped and not a dot. -/
def token (c : Char) : Token := if c = '*' then .any else if c = '?' then .one else .char c

/-- The first step gets a token in front. -/
def consHead (t : Token) : List Step → List Step
  | [] => [[t]]
  | step :: steps => (t :: step) :: steps

/-- The steps of a path; `escaped` is whether a backslash stands before it. A backslash at the end
stands for nothing. -/
def read : (escaped : Bool) → List Char → List Step
  | _, [] => [[]]
  | true, c :: s => consHead (.char c) (read false s)
  | false, c :: s =>
    if c = '\\' then read true s
    else if c = '.' then [] :: read false s
    else consHead (token c) (read false s)

/-- Whether the last character is a backslash that escapes what comes next. -/
def open? : (escaped : Bool) → List Char → Bool
  | escaped, [] => escaped
  | true, _ :: s => open? false s
  | false, c :: s => open? (c = '\\') s

/-- Whether a name fits a step. -/
def fits : Step → List Char → Bool
  | [], s => s.isEmpty
  | .char c :: p, s => s.head? = some c && fits p s.tail
  | .one :: p, s => !s.isEmpty && fits p s.tail
  | .any :: p, s => s.tails.any (fits p)

/-- A step without patterns, as the name it is. -/
def literal? : Step → Option (List Char)
  | [] => some []
  | .char c :: p => (literal? p).map (c :: ·)
  | _ => none

/-- Names with dots between them. -/
def join : List (List Char) → List Char
  | [] => []
  | [k] => k
  | k :: k' :: ks => k ++ '.' :: join (k' :: ks)

variable {escaped : Bool} {s t k : List Char} {ks : List (List Char)} {p : Step}
  {steps : List Step}

theorem join_cons (k : List Char) (h : ks ≠ []) : join (k :: ks) = k ++ '.' :: join ks := by
  obtain ⟨k', ks, rfl⟩ := List.exists_cons_of_ne_nil h
  rfl

/-! ### Reading -/

theorem consHead_ne_nil (t : Token) (steps : List Step) : consHead t steps ≠ [] := by
  cases steps <;> exact List.cons_ne_nil _ _

theorem read_ne_nil (escaped : Bool) (s : List Char) : read escaped s ≠ [] := by
  cases s with
  | nil => cases escaped <;> exact List.cons_ne_nil _ _
  | cons c s =>
    cases escaped with
    | true => exact consHead_ne_nil _ _
    | false =>
      rw [read]
      split_ifs
      · exact read_ne_nil true s
      · exact List.cons_ne_nil _ _
      · exact consHead_ne_nil _ _

theorem consHead_eq (t : Token) {steps : List Step} (h : steps ≠ []) :
    consHead t steps = (t :: steps.headI) :: steps.tail := by
  obtain ⟨step, steps, rfl⟩ := List.exists_cons_of_ne_nil h
  rfl

theorem read_eq_cons (escaped : Bool) (s : List Char) :
    read escaped s = (read escaped s).headI :: (read escaped s).tail :=
  (List.cons_head!_tail (read_ne_nil escaped s)).symm

/-- **A name and what comes behind its dot** are read one after the other, if the name does not end
in the middle. -/
theorem read_append_dot (h : open? escaped s = false) :
    read escaped (s ++ '.' :: t) = read escaped s ++ read false t := by
  induction s generalizing escaped with
  | nil =>
    obtain rfl : escaped = false := h
    rfl
  | cons c s ih =>
    cases escaped with
    | true =>
      have ih := ih h
      rw [List.cons_append, read, read, ih, consHead_eq _ (List.append_ne_nil_of_left_ne_nil
        (read_ne_nil _ _) _), consHead_eq _ (read_ne_nil _ _), read_eq_cons false s]
      rfl
    | false =>
      have ih := ih h
      rw [List.cons_append, read, read]
      by_cases hesc : c = '\\'
      · rw [if_pos hesc, if_pos hesc]
        rwa [decide_eq_true hesc] at ih
      · rw [decide_eq_false hesc] at ih
        rw [if_neg hesc, if_neg hesc]
        by_cases hdot : c = '.'
        · rw [if_pos hdot, if_pos hdot, ih, List.cons_append]
        · rw [if_neg hdot, if_neg hdot, ih, consHead_eq _ (List.append_ne_nil_of_left_ne_nil
            (read_ne_nil _ _) _), consHead_eq _ (read_ne_nil _ _), read_eq_cons false s]
          rfl

/-- **The first step** of a text is read from its beginning as long as that has no dot. -/
theorem headI_read_append (escaped : Bool) (s t : List Char) :
    (read escaped (s ++ t)).headI = (read escaped s).headI ++
      if (read escaped s).tail = [] then (read (open? escaped s) t).headI else [] := by
  induction s generalizing escaped with
  | nil =>
    rw [List.nil_append, read_eq_cons escaped []]
    cases escaped <;> rfl
  | cons c s ih =>
    cases escaped with
    | true =>
      rw [List.cons_append, read, read, consHead_eq _ (read_ne_nil _ _), ih false,
        consHead_eq _ (read_ne_nil _ _)]
      rfl
    | false =>
      rw [List.cons_append, read, read, open?]
      by_cases hesc : c = '\\'
      · rw [if_pos hesc, if_pos hesc, decide_eq_true hesc]
        exact ih true
      · rw [if_neg hesc, if_neg hesc, decide_eq_false hesc]
        by_cases hdot : c = '.'
        · rw [if_pos hdot, if_pos hdot, List.tail_cons, if_neg (read_ne_nil false s)]
          rfl
        · rw [if_neg hdot, if_neg hdot, consHead_eq _ (read_ne_nil _ _), ih false,
            consHead_eq _ (read_ne_nil _ _)]
          rfl

/-! ### Counting dots -/

/-- The dots of a step that are not between steps. -/
def dots (p : Step) : ℕ := p.count (.char '.')

theorem dots_cons (t : Token) (p : Step) :
    dots (t :: p) = dots p + if t = .char '.' then 1 else 0 := by
  rw [dots, List.count_cons, dots]
  simp only [beq_iff_eq]

theorem token_ne_dot {c : Char} (h : c ≠ '.') : token c ≠ .char '.' := by
  rw [token]
  split_ifs
  · exact nofun
  · exact nofun
  · exact fun heq => h (Token.char.inj heq)

theorem sum_dots_consHead (t : Token) {steps : List Step} (h : steps ≠ []) :
    ((consHead t steps).map dots).sum + (consHead t steps).length =
      (steps.map dots).sum + steps.length + if t = .char '.' then 1 else 0 := by
  obtain ⟨step, steps, rfl⟩ := List.exists_cons_of_ne_nil h
  simp only [consHead, List.map_cons, List.sum_cons, List.length_cons, dots_cons]
  omega

/-- **Every dot of a path** is in a step or between two. -/
theorem sum_dots_read (escaped : Bool) (s : List Char) :
    ((read escaped s).map dots).sum + (read escaped s).length = s.count '.' + 1 := by
  induction s generalizing escaped with
  | nil => cases escaped <;> rfl
  | cons c s ih =>
    rw [List.count_cons]
    cases escaped with
    | true =>
      rw [read, sum_dots_consHead _ (read_ne_nil _ _), ih false]
      simp only [Token.char.injEq, beq_iff_eq]
      omega
    | false =>
      rw [read]
      by_cases hesc : c = '\\'
      · rw [if_pos hesc, ih true, hesc]
        rfl
      · rw [if_neg hesc]
        by_cases hdot : c = '.'
        · have ih := ih false
          have hnil : dots [] = 0 := rfl
          rw [if_pos hdot, List.map_cons, List.sum_cons, List.length_cons, hnil, hdot,
            beq_self_eq_true, if_pos rfl]
          omega
        · rw [if_neg hdot, sum_dots_consHead _ (read_ne_nil _ _), ih false,
            if_neg (token_ne_dot hdot), if_neg (by simpa using hdot)]

/-- **A name that fits a step** has the dots of the step. -/
theorem dots_le_of_fits (h : fits p s = true) : dots p ≤ s.count '.' := by
  induction p generalizing s with
  | nil => exact Nat.zero_le _
  | cons t p ih =>
    rw [dots_cons]
    cases t with
    | char c =>
      rw [fits, Bool.and_eq_true, decide_eq_true_eq] at h
      obtain ⟨d, s, rfl⟩ := List.exists_cons_of_ne_nil (List.ne_nil_of_mem
        (List.mem_of_mem_head? h.1))
      obtain rfl : d = c := Option.some.inj h.1
      have hle := ih h.2
      rw [List.tail_cons] at hle
      rw [List.count_cons]
      simp only [Token.char.injEq, beq_iff_eq]
      omega
    | one =>
      rw [fits, Bool.and_eq_true] at h
      exact (ih h.2).trans ((List.tail_sublist s).count_le _)
    | any =>
      rw [fits, List.any_eq_true] at h
      obtain ⟨u, hu, hfits⟩ := h
      exact (ih hfits).trans (((List.mem_tails _ _).1 hu).sublist.count_le _)

/-! ### Names that are read one by one -/

/-- The step that a name is read as. -/
def own (k : List Char) : Step := (read false k).headI

/-- **Each name is a step**: no dot in it separates, and none but the last ends in the middle. -/
structure Separate (ks : List (List Char)) : Prop where
  single : ∀ k ∈ ks, (read false k).tail = []
  closed : ∀ k ∈ ks.dropLast, open? false k = false

theorem read_of_single (h : (read false k).tail = []) : read false k = [own k] := by
  rw [read_eq_cons, h, own]

theorem Separate.read_join (h : Separate ks) (hne : ks ≠ []) :
    read false (join ks) = ks.map own := by
  induction ks with
  | nil => exact absurd rfl hne
  | cons k ks ih =>
    have hk := read_of_single (h.single k List.mem_cons_self)
    by_cases hks : ks = []
    · subst hks
      exact hk
    · have hrest : Separate ks := by
        refine ⟨fun k' hk' => h.single k' (List.mem_cons_of_mem k hk'), fun k' hk' => ?_⟩
        refine h.closed k' ?_
        rw [List.dropLast_cons_of_ne_nil hks]
        exact List.mem_cons_of_mem k hk'
      have hclosed : open? false k = false := by
        refine h.closed k ?_
        rw [List.dropLast_cons_of_ne_nil hks]
        exact List.mem_cons_self
      rw [join_cons k hks, read_append_dot hclosed, hk, ih hrest hks]
      rfl

theorem dots_own (h : (read false k).tail = []) : dots (own k) = k.count '.' := by
  have hsum := sum_dots_read false k
  rw [read_of_single h, List.map_singleton, List.sum_singleton, List.length_singleton] at hsum
  omega

theorem dots_own_lt (h : (read false k).tail ≠ []) : dots (own k) < k.count '.' := by
  have hsum := sum_dots_read false k
  rw [read_eq_cons, List.map_cons, List.sum_cons, List.length_cons] at hsum
  have hpos := List.length_pos_of_ne_nil h
  rw [own]
  omega

theorem count_join (h : ks ≠ []) :
    (join ks).count '.' + 1 = (ks.map (List.count '.')).sum + ks.length := by
  induction ks with
  | nil => exact absurd rfl h
  | cons k ks ih =>
    by_cases hks : ks = []
    · subst hks
      rw [join, List.map_singleton, List.sum_singleton, List.length_singleton]
    · have ih := ih hks
      rw [join_cons k hks, List.count_append, List.count_cons_self, List.map_cons, List.sum_cons,
        List.length_cons]
      omega

/-- **Where the steps fit the names**, as many as there are, they were read name by name: all dots
of the names are in their own steps, so the first name is a step without the rest. -/
theorem separate_of_forall₂
    (h : List.Forall₂ (fun p k => dots p ≤ k.count '.') (read false (join ks)) ks) :
    Separate ks := by
  induction ks with
  | nil => exact absurd (List.forall₂_nil_right_iff.1 h) (read_ne_nil _ _)
  | cons k ks ih =>
    by_cases hks : ks = []
    · subst hks
      refine ⟨fun k' hk' => ?_, fun k' hk' => absurd hk' List.not_mem_nil⟩
      obtain rfl := List.mem_singleton.1 hk'
      have hlen := h.length_eq
      rw [join, List.length_singleton] at hlen
      exact List.eq_nil_of_length_eq_zero (by rw [List.length_tail, hlen])
    rw [join_cons k hks] at h
    have htotal := sum_dots_read false (k ++ '.' :: join ks)
    have hhead := headI_read_append false k ('.' :: join ks)
    have hjoin := count_join hks
    rw [List.count_append, List.count_cons_self] at htotal
    rw [read_eq_cons false (k ++ '.' :: join ks)] at h htotal
    obtain ⟨hle, hrest⟩ := List.forall₂_cons.1 h
    have hsum : (((read false (k ++ '.' :: join ks)).tail).map dots).sum ≤
        (ks.map (List.count '.')).sum := by
      refine List.Forall₂.sum_le_sum ?_
      rw [List.forall₂_map_left_iff, List.forall₂_map_right_iff]
      exact hrest
    have hlen := hrest.length_eq
    rw [List.map_cons, List.sum_cons, List.length_cons] at htotal
    have hge : k.count '.' ≤ dots (read false (k ++ '.' :: join ks)).headI := by omega
    have hsingle : (read false k).tail = [] := by
      by_contra htail
      rw [if_neg htail, List.append_nil] at hhead
      have hlt := dots_own_lt htail
      rw [own, ← hhead] at hlt
      omega
    have hclosed : open? false k = false := by
      by_contra hopen
      rw [if_pos hsingle, Bool.eq_true_of_not_eq_false hopen, read,
        consHead_eq _ (read_ne_nil _ _), List.headI_cons] at hhead
      have hown := dots_own hsingle
      rw [own] at hown
      rw [hhead, dots, List.count_append, List.count_cons_self, ← dots, hown] at hle
      omega
    rw [read_append_dot hclosed, read_of_single hsingle] at hrest
    have hseparate := ih hrest
    refine ⟨List.forall_mem_cons.2 ⟨hsingle, hseparate.single⟩, ?_⟩
    rw [List.dropLast_cons_of_ne_nil hks]
    exact List.forall_mem_cons.2 ⟨hclosed, hseparate.closed⟩

/-! ### Names without patterns -/

theorem literal?_eq_some_iff : literal? p = some k ↔ p = k.map .char := by
  induction p generalizing k with
  | nil =>
    rw [literal?, Option.some_inj]
    exact ⟨fun h => h ▸ rfl, fun h => (List.map_eq_nil_iff.1 h.symm).symm⟩
  | cons t p ih =>
    cases t with
    | char c =>
      rw [literal?, Option.map_eq_some_iff]
      constructor
      · rintro ⟨k, hk, rfl⟩
        rw [ih.1 hk]
        rfl
      · intro h
        cases k with
        | nil => cases h
        | cons d k =>
          obtain ⟨hc, hp⟩ := List.cons.inj h
          exact ⟨k, ih.2 hp, by rw [Token.char.inj hc]⟩
    | any | one =>
      refine iff_of_false (fun h => by cases h) fun h => ?_
      cases k <;> cases h

theorem fits_map_char : fits (k.map .char) s = true ↔ s = k := by
  induction k generalizing s with
  | nil => exact List.isEmpty_iff
  | cons c k ih =>
    rw [List.map_cons, fits, Bool.and_eq_true, decide_eq_true_eq, ih]
    cases s with
    | nil => exact iff_of_false (fun h => by cases h.1) (List.cons_ne_nil c k).symm
    | cons d s => rw [List.head?_cons, List.tail_cons, Option.some_inj, List.cons.injEq]

theorem dots_map_char (k : List Char) : dots (k.map .char) = k.count '.' := by
  induction k with
  | nil => rfl
  | cons c k ih =>
    rw [List.map_cons, dots_cons, ih, List.count_cons]
    simp only [Token.char.injEq, beq_iff_eq]

/-- A name without dots, backslashes and patterns is read as it is. -/
theorem read_of_forall (h : ∀ c ∈ s, c ∉ ['\\', '.', '*', '?']) :
    read false s = [s.map .char] := by
  induction s with
  | nil => rfl
  | cons c s ih =>
    obtain ⟨hc, hs⟩ := List.forall_mem_cons.1 h
    simp only [List.mem_cons, List.not_mem_nil, or_false, not_or] at hc
    obtain ⟨hesc, hdot, hany, hone⟩ := hc
    rw [read, if_neg hesc, if_neg hdot, ih hs, token, if_neg hany, if_neg hone]
    rfl

end GlobPath
