import NewApiPool.Setting.TierEditor

/-!
# Texts of the price editor

A text that a regular expression of the editor matches consists of tokens, with white space between
some of them (`NewApiPool.TierEditor.Spaced`), and so does what the editor writes. Two texts of the
same tokens are the same without their white space.
-/

namespace NewApiPool.TierEditor

open JsText Backtrack

/-! ### Tokens -/

section Spaced

variable {s t r b sep : Text} {ts us : List Text} {tss : List (List Text)} {c : Char}
  {blank : Char → Bool}

/-- A text that consists of tokens, with white space around them. -/
inductive Spaced (blank : Char → Bool) : List Text → Text → Prop
  | nil {b : Text} (hb : ∀ c ∈ b, blank c = true) : Spaced blank [] b
  | cons {b t s : Text} {ts : List Text} (hb : ∀ c ∈ b, blank c = true) (h : Spaced blank ts s) :
    Spaced blank (t :: ts) (b ++ (t ++ s))

theorem forall_mem_eq {p : Char → Bool} {v : Bool} (h : (s.all fun c => p c == v) = true) :
    ∀ c ∈ s, p c = v :=
  fun c hc => eq_of_beq (List.all_eq_true.1 h c hc)

/-- A space of a template. -/
def isSpace (c : Char) : Bool := c == ' '

theorem isWhiteSpace_of_isSpace (h : isSpace c = true) : isWhiteSpace c = true := by
  rw [eq_of_beq h]
  decide

theorem Spaced.blank_append (h : Spaced blank ts s) (hb : ∀ c ∈ b, blank c = true) :
    Spaced blank ts (b ++ s) := by
  cases h with
  | nil hb' => exact .nil (List.forall_mem_append.2 ⟨hb, hb'⟩)
  | cons hb' h =>
    rw [← List.append_assoc]
    exact .cons (List.forall_mem_append.2 ⟨hb, hb'⟩) h

theorem Spaced.append (h : Spaced blank ts s) (h' : Spaced blank us t) :
    Spaced blank (ts ++ us) (s ++ t) := by
  induction h with
  | nil hb => exact h'.blank_append hb
  | cons hb _ ih =>
    rw [List.append_assoc, List.append_assoc]
    exact .cons hb ih

theorem spaced_nil : Spaced blank [] [] := .nil fun _ h => absurd h List.not_mem_nil

theorem spaced_singleton (t : Text) : Spaced blank [t] t := by
  have h : Spaced blank [t] ([] ++ (t ++ [])) :=
    .cons (fun _ h => absurd h List.not_mem_nil) spaced_nil
  rwa [List.nil_append, List.append_nil] at h

theorem Spaced.push (h : Spaced blank ts s) (t : Text) : Spaced blank (t :: ts) (t ++ s) :=
  (spaced_singleton t).append h

theorem Spaced.mono (h : Spaced isSpace ts s) : Spaced isWhiteSpace ts s := by
  induction h with
  | nil hb => exact .nil fun c hc => isWhiteSpace_of_isSpace (hb c hc)
  | cons hb _ ih => exact .cons (fun c hc => isWhiteSpace_of_isSpace (hb c hc)) ih

/-- **There is a text** of any tokens. -/
theorem exists_spaced (ts : List Text) : ∃ s, Spaced isSpace ts s := by
  induction ts with
  | nil => exact ⟨[], spaced_nil⟩
  | cons t ts ih =>
    obtain ⟨s, hs⟩ := ih
    exact ⟨t ++ s, hs.push t⟩

/-- Lists of tokens with one token between two of them. -/
def joined (sep : Text) : List (List Text) → List Text
  | [] => []
  | ts :: tss => ts ++ tss.flatMap (sep :: ·)

theorem joined_cons : joined sep (ts :: tss) = ts ++ tss.flatMap (sep :: ·) := rfl

theorem joined_cons_cons :
    joined sep (ts :: us :: tss) = ts ++ sep :: joined sep (us :: tss) := by
  simp [joined]

/-- **What is written with a separator** between its parts. -/
theorem spaced_intercalate {α : Type} {tokens : α → List Text} {text : α → Text} {xs : List α}
    (h : ∀ x ∈ xs, Spaced isSpace (tokens x) (text x)) :
    Spaced isSpace (joined sep (xs.map tokens))
      ((" ".toList ++ sep ++ " ".toList).intercalate (xs.map text)) := by
  have hspace : ∀ c ∈ " ".toList, isSpace c = true := forall_mem_eq (by decide)
  induction xs with
  | nil => exact spaced_nil
  | cons x xs ih =>
    obtain ⟨hx, hxs⟩ := List.forall_mem_cons.1 h
    cases xs with
    | nil => simpa [joined] using hx
    | cons y ys =>
      have hrest := (((ih hxs).blank_append hspace).push sep).blank_append hspace
      rw [List.map_cons, List.map_cons, List.map_cons, List.map_cons, joined_cons_cons,
        List.intercalate_cons_cons]
      simpa using hx.append hrest

/-! ### Without white space -/

theorem squash_append (s t : Text) : squash (s ++ t) = squash s ++ squash t := by
  rw [squash, squash, squash, List.filter_append]

theorem squash_of_blank (h : ∀ c ∈ b, isWhiteSpace c = true) : squash b = [] :=
  List.filter_eq_nil_iff.2 fun c hc => by simp [h c hc]

theorem squash_of_solid (h : ∀ c ∈ s, isWhiteSpace c = false) : squash s = s :=
  List.filter_eq_self.2 fun c hc => by simp [h c hc]

/-- The tokens without their white space. -/
def compact (ts : List Text) : Text := ts.flatMap squash

@[simp] theorem compact_nil : compact [] = [] := rfl

@[simp] theorem compact_cons (t : Text) (ts : List Text) :
    compact (t :: ts) = squash t ++ compact ts := List.flatMap_cons

@[simp] theorem compact_append (ts us : List Text) :
    compact (ts ++ us) = compact ts ++ compact us := List.flatMap_append

theorem Spaced.squash (h : Spaced isWhiteSpace ts s) : squash s = compact ts := by
  induction h with
  | nil hb => exact squash_of_blank hb
  | cons hb _ ih => rw [squash_append, squash_append, squash_of_blank hb, ih, compact_cons]; rfl

/-- **What is left without white space** are tokens of one character each. -/
theorem spaced_of_squash (s : Text) : Spaced isWhiteSpace ((squash s).map fun c => [c]) s := by
  induction s with
  | nil => exact spaced_nil
  | cons c s ih =>
    rw [TierEditor.squash]
    cases hc : isWhiteSpace c with
    | true =>
      rw [List.filter_cons_of_neg (by simp [hc])]
      exact ih.blank_append fun d hd => List.mem_singleton.1 hd ▸ hc
    | false =>
      rw [List.filter_cons_of_pos (by simp [hc])]
      exact ih.push [c]

end Spaced

/-! ### The tokens of an expression -/

/-- The numbers of a body with their variables. -/
def Body.terms (body : Body) : List (Text × Text) :=
  ("p".toList, body.input) :: ("c".toList, body.output) ::
    body.cache.map fun z => (z.1.text, z.2)

def termTokens (z : Text × Text) : List Text := [z.1, "*".toList, z.2]

def bodyTokens (body : Body) : List Text := joined "+".toList (body.terms.map termTokens)

def tierTokens (label : Text) (body : Body) : List Text :=
  "tier".toList :: "(".toList :: ('"' :: (label ++ ['"'])) :: ",".toList ::
    (bodyTokens body ++ [")".toList])

def conditionTokens (c : ConditionVar × Op × Text) : List Text := [c.1.text, c.2.1.text, c.2.2]

/-- Conditions, and the sign after them. -/
def guardTokens (cs : List (ConditionVar × Op × Text)) : List Text :=
  if cs = [] then [] else joined "&&".toList (cs.map conditionTokens) ++ ["?".toList]

/-- A tier of an expression. -/
structure Part where
  conditions : List (ConditionVar × Op × Text)
  label : Text
  body : Body

def Part.tokens (part : Part) : List Text :=
  guardTokens part.conditions ++ tierTokens part.label part.body

/-- What is written for the case that the condition of a single tier does not hold. -/
def zeroTokens : List Text :=
  [":".toList, "p".toList, "*".toList, "0".toList, "+".toList, "c".toList, "*".toList, "0".toList]

/-- A text that the class of the numbers takes. -/
def NumberText (x : Text) : Prop := x ≠ [] ∧ ∀ c ∈ x, isNumberChar c = true

instance (x : Text) : Decidable (NumberText x) :=
  decidable_of_iff (x ≠ [] ∧ x.all isNumberChar = true) (by rw [List.all_eq_true, NumberText])

/-- What a number of a condition consists of, `NaN` included. -/
def isPlain (c : Char) : Bool := c.isAlphanum || ['.', '+', '-'].contains c

structure Body.Valid (body : Body) : Prop where
  input : NumberText body.input
  output : NumberText body.output
  cache : ∀ z ∈ body.cache, NumberText z.2
  vars : (body.cache.map Prod.fst).Sublist cacheVarMap

structure Part.Valid (part : Part) : Prop where
  conditions : ∀ c ∈ part.conditions, ∀ d ∈ c.2.2, isPlain d = true
  label : '"' ∉ part.label
  body : part.body.Valid

/-! ### What is matched -/

section Sound

variable {s t r u x y n var label : Text} {body : Body} {zs : List (CacheVar × Text)}
  {cvs : List CacheVar} {cs : List (ConditionVar × Op × Text)} {c : ConditionVar × Op × Text}
  {found : Option Text × Text × Body}

theorem mem_spaces : (u, r) ∈ spaces s ↔ s = u ++ r ∧ ∀ c ∈ u, isWhiteSpace c = true := mem_many

theorem mem_product (h : (x, r) ∈ product var s) :
    ∃ u, s = u ++ r ∧ Spaced isWhiteSpace (termTokens (var, x)) u ∧ NumberText x := by
  simp only [product, mem_bind, mem_lit, mem_spaces, mem_many1] at h
  obtain ⟨-, s₁, rfl, b, s₂, ⟨rfl, hb⟩, -, s₃, rfl, b', s₄, ⟨rfl, hb'⟩, rfl, hne, hall⟩ := h
  refine ⟨var ++ (b ++ ("*".toList ++ (b' ++ x))), by simp, ?_, hne, hall⟩
  have hx : Spaced isWhiteSpace [x] (b' ++ x) := (spaced_singleton x).blank_append hb'
  exact ((hx.push "*".toList).blank_append hb).push var

theorem mem_summand (h : (x, r) ∈ summand var s) :
    ∃ u, s = u ++ r ∧ Spaced isWhiteSpace ("+".toList :: termTokens (var, x)) u ∧
      NumberText x := by
  simp only [summand, mem_bind, mem_lit, mem_spaces] at h
  obtain ⟨b, s₁, ⟨rfl, hb⟩, -, s₂, rfl, b', s₃, ⟨rfl, hb'⟩, hproduct⟩ := h
  obtain ⟨u, rfl, hu, hx⟩ := mem_product hproduct
  refine ⟨b ++ ("+".toList ++ (b' ++ u)), by simp, ?_, hx⟩
  exact ((hu.blank_append hb').push "+".toList).blank_append hb

theorem mem_optCacheStr (h : (zs, r) ∈ optCacheStr cvs s) :
    ∃ u, s = u ++ r ∧
      Spaced isWhiteSpace (zs.flatMap fun z => "+".toList :: termTokens (z.1.text, z.2)) u ∧
      (∀ z ∈ zs, NumberText z.2) ∧ (zs.map Prod.fst).Sublist cvs := by
  induction cvs generalizing s zs with
  | nil =>
    obtain ⟨rfl, rfl⟩ := Prod.mk.inj (mem_pure.1 h)
    exact ⟨[], rfl, spaced_nil, fun _ hz => absurd hz List.not_mem_nil, .slnil⟩
  | cons cv cvs ih =>
    simp only [optCacheStr, mem_bind, mem_optional, mem_pure] at h
    obtain ⟨x, t, hx, zs', t', hzs', heq⟩ := h
    obtain ⟨rfl, rfl⟩ := Prod.mk.inj heq
    obtain ⟨u', rfl, hu', hall, hsub⟩ := ih hzs'
    obtain ⟨a, rfl, ha⟩ | ⟨rfl, rfl⟩ := hx
    · obtain ⟨u, rfl, hu, hnumber⟩ := mem_summand ha
      refine ⟨u ++ u', by simp, ?_, List.forall_mem_cons.2 ⟨hnumber, hall⟩, hsub.cons_cons cv⟩
      exact hu.append hu'
    · exact ⟨u', rfl, hu', hall, hsub.cons cv⟩

theorem mem_bodyPat (h : (body, r) ∈ bodyPat s) :
    ∃ u, s = u ++ r ∧ Spaced isWhiteSpace (bodyTokens body) u ∧ body.Valid := by
  simp only [bodyPat, mem_bind, mem_pure] at h
  obtain ⟨x, s₁, hx, y, s₂, hy, zs, s₃, hzs, heq⟩ := h
  obtain ⟨rfl, rfl⟩ := Prod.mk.inj heq
  obtain ⟨u₁, rfl, hu₁, hnx⟩ := mem_product hx
  obtain ⟨u₂, rfl, hu₂, hny⟩ := mem_summand hy
  obtain ⟨u₃, rfl, hu₃, hall, hsub⟩ := mem_optCacheStr hzs
  refine ⟨u₁ ++ u₂ ++ u₃, by simp, ?_, hnx, hny, hall, hsub⟩
  have htokens : bodyTokens ⟨x, y, zs⟩ = termTokens ("p".toList, x) ++
      "+".toList :: termTokens ("c".toList, y) ++
        zs.flatMap fun z => "+".toList :: termTokens (z.1.text, z.2) := by
    simp [bodyTokens, Body.terms, joined, List.flatMap_map]
  rw [htokens]
  exact (hu₁.append hu₂).append hu₃

theorem mem_tierPat (h : ((label, body), r) ∈ tierPat s) :
    ∃ u, s = u ++ r ∧ Spaced isWhiteSpace (tierTokens label body) u ∧ '"' ∉ label ∧
      body.Valid := by
  simp only [tierPat, mem_bind, mem_lit, mem_many, mem_spaces, mem_pure] at h
  obtain ⟨-, s₁, rfl, l, s₂, ⟨rfl, hlabel⟩, -, s₃, rfl, b, s₄, ⟨rfl, hb⟩, body', s₅, hbody, -, s₆,
    rfl, heq⟩ := h
  obtain ⟨hpair, rfl⟩ := Prod.mk.inj heq
  obtain ⟨rfl, rfl⟩ := Prod.mk.inj hpair
  obtain ⟨u, hu, htokens, hvalid⟩ := mem_bodyPat hbody
  refine ⟨"tier(\"".toList ++ (label ++ ("\",".toList ++ (b ++ (u ++ ")".toList)))), by simp [hu],
    ?_, fun hmem => by simpa using hlabel '"' hmem, hvalid⟩
  have hrest := ((htokens.append (spaced_singleton ")".toList)).blank_append hb).push ",".toList
  have hall := ((hrest.push ('"' :: (label ++ ['"']))).push "(".toList).push "tier".toList
  rw [tierTokens]
  simpa using hall

theorem isPlain_of_isCountChar {d : Char} (h : isCountChar d = true) : isPlain d = true := by
  have hdigit : d.isDigit = true → d.isAlphanum = true := by simp +contextual [Char.isAlphanum]
  simp only [isCountChar, isPlain, Bool.or_eq_true, List.contains_iff_mem, List.mem_cons,
    List.not_mem_nil, or_false] at h ⊢
  obtain h | rfl | rfl | rfl | rfl := h
  · exact .inl (hdigit h)
  all_goals decide

theorem mem_condition (h : (c, r) ∈ condition s) :
    ∃ u, s = u ++ r ∧ Spaced isWhiteSpace (conditionTokens c) u ∧
      ∀ d ∈ c.2.2, isPlain d = true := by
  simp only [condition, mem_bind, mem_oneOf, mem_spaces, mem_many1, mem_pure] at h
  obtain ⟨v, s₁, ⟨-, rfl⟩, b, s₂, ⟨rfl, hb⟩, op, s₃, ⟨-, rfl⟩, b', s₄, ⟨rfl, hb'⟩, n, s₅,
    ⟨rfl, -, hall⟩, heq⟩ := h
  obtain ⟨rfl, rfl⟩ := Prod.mk.inj heq
  refine ⟨v.text ++ (b ++ (op.text ++ (b' ++ n))), by simp, ?_,
    fun d hd => isPlain_of_isCountChar (hall d hd)⟩
  have hn : Spaced isWhiteSpace [n] (b' ++ n) := (spaced_singleton n).blank_append hb'
  exact ((hn.push op.text).blank_append hb).push v.text

theorem mem_andSign {a : Unit} (h : (a, r) ∈ andSign s) :
    ∃ b b', s = b ++ ("&&".toList ++ (b' ++ r)) ∧ (∀ c ∈ b, isWhiteSpace c = true) ∧
      ∀ c ∈ b', isWhiteSpace c = true := by
  simp only [andSign, mem_bind, mem_lit, mem_spaces, mem_pure] at h
  obtain ⟨b, s₁, ⟨rfl, hb⟩, -, s₂, rfl, b', s₃, ⟨rfl, hb'⟩, heq⟩ := h
  exact ⟨b, b', by rw [(Prod.mk.inj heq).2], hb, hb'⟩

theorem mem_times_condition {k : ℕ}
    (h : (cs, r) ∈ times (andSign >>= fun _ => condition) k s) :
    ∃ u, s = u ++ r ∧
      Spaced isWhiteSpace (cs.flatMap fun c => "&&".toList :: conditionTokens c) u ∧
      ∀ c ∈ cs, ∀ d ∈ c.2.2, isPlain d = true := by
  induction k generalizing s cs with
  | zero =>
    obtain ⟨rfl, rfl⟩ := Prod.mk.inj (List.mem_singleton.1 h)
    exact ⟨[], rfl, spaced_nil, fun _ hc => absurd hc List.not_mem_nil⟩
  | succ k ih =>
    obtain ⟨c, t, cs', hfirst, hrest, rfl⟩ | ⟨rfl, rfl⟩ := mem_times_succ.1 h
    · obtain ⟨a, s₁, hand, hc⟩ := mem_bind.1 hfirst
      obtain ⟨b, b', rfl, hb, hb'⟩ := mem_andSign hand
      obtain ⟨u, rfl, hu, hplain⟩ := mem_condition hc
      obtain ⟨u', rfl, hu', hall⟩ := ih hrest
      refine ⟨b ++ ("&&".toList ++ (b' ++ u)) ++ u', by simp, ?_,
        List.forall_mem_cons.2 ⟨hplain, hall⟩⟩
      exact (((hu.blank_append hb').push "&&".toList).blank_append hb).append hu'
    · exact ⟨[], rfl, spaced_nil, fun _ hc => absurd hc List.not_mem_nil⟩

/-- The conditions before a tier, as they are captured. -/
theorem mem_condGroup (h : (x, r) ∈ condGroup s) :
    s = x ++ r ∧ ∃ cs, cs ≠ [] ∧
      Spaced isWhiteSpace (joined "&&".toList (cs.map conditionTokens)) x ∧
      ∀ c ∈ cs, ∀ d ∈ c.2.2, isPlain d = true := by
  obtain ⟨cs, hcs, hx⟩ := mem_captured.1 h
  simp only [mem_bind, mem_pure] at hcs
  obtain ⟨c, s₁, hc, cs', s₂, hstar, heq⟩ := hcs
  obtain ⟨rfl, rfl⟩ := Prod.mk.inj heq
  obtain ⟨u, rfl, hu, hplain⟩ := mem_condition hc
  obtain ⟨u', rfl, hu', hall⟩ := mem_times_condition hstar
  rw [← List.append_assoc, take_append] at hx
  subst hx
  refine ⟨(List.append_assoc _ _ _).symm, c :: cs', List.cons_ne_nil _ _, ?_,
    List.forall_mem_cons.2 ⟨hplain, hall⟩⟩
  rw [List.map_cons, joined, List.flatMap_map]
  exact hu.append hu'

/-- **A match of `tierRe`**: the conditions, if there are any, and the tier. -/
theorem mem_tierRe (h : (found, r) ∈ tierRe s) :
    ∃ u cs, s = u ++ r ∧
      Spaced isWhiteSpace (guardTokens cs ++ tierTokens found.2.1 found.2.2) u ∧
      (found.1 = none ∧ cs = [] ∨ ∃ x, found.1 = some x ∧ cs ≠ [] ∧
        Spaced isWhiteSpace (joined "&&".toList (cs.map conditionTokens)) x) ∧
      (∀ c ∈ cs, ∀ d ∈ c.2.2, isPlain d = true) ∧ '"' ∉ found.2.1 ∧ found.2.2.Valid := by
  simp only [tierRe, mem_bind, mem_optional, mem_lit, mem_spaces, mem_pure] at h
  obtain ⟨cond, s₁, hcond, tier, s₂, htier, heq⟩ := h
  obtain ⟨rfl, rfl⟩ := Prod.mk.inj heq
  obtain ⟨v, rfl, hv, hlabel, hbody⟩ := mem_tierPat htier
  obtain ⟨x, rfl, x', s₃, hx', b, s₄, ⟨rfl, hb⟩, -, s₅, rfl, b', s₆, ⟨rfl, hb'⟩, hx⟩ |
    ⟨rfl, rfl⟩ := hcond
  · obtain ⟨rfl, hrest⟩ := Prod.mk.inj hx
    obtain ⟨rfl, cs, hne, hcs, hall⟩ := mem_condGroup hx'
    refine ⟨x ++ (b ++ ("?".toList ++ (b' ++ v))), cs, by simp [hrest], ?_,
      .inr ⟨x, rfl, hne, hcs⟩, hall, hlabel, hbody⟩
    have hsign := ((hv.blank_append hb').push "?".toList).blank_append hb
    rw [guardTokens, if_neg hne, List.append_assoc]
    exact hcs.append hsign
  · exact ⟨v, [], rfl, hv, .inl ⟨rfl, rfl⟩, fun _ hc => absurd hc List.not_mem_nil, hlabel, hbody⟩

end Sound

end NewApiPool.TierEditor
