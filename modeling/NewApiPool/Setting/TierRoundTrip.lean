import NewApiPool.Setting.TierWriting

/-!
# Reading back what the price editor wrote

For a configuration whose tiers have conditions, but for the last one, the first way in which the
regular expressions match the text that is written is the one that gives its tiers back
(`NewApiPool.TierEditor.tryParse_generate`). What is lost is what is not written: incomplete
conditions, missing numbers, and the mode of the cache.
-/

namespace NewApiPool.TierEditor

open JsText Backtrack

/-! ### The first way of each expression -/

section First

variable {s t r u x n var label : Text} {cvs : List CacheVar} {zs : List (CacheVar × Text)}
  {body : Body} {cs : List (ConditionVar × Op × Text)} {c : ConditionVar × Op × Text}

theorem head?_spaces (hs : ∀ c ∈ s.head?, isWhiteSpace c = false) :
    (spaces ([' '] ++ s)).head? = some ([' '], s) :=
  head?_many (forall_mem_eq (by decide)) hs

theorem not_blank_of_number (hx : NumberText x) : ∀ c ∈ (x ++ r).head?, isWhiteSpace c = false := by
  intro c hc
  obtain ⟨d, x, rfl⟩ := List.exists_cons_of_ne_nil hx.1
  obtain rfl := Option.some.inj hc
  exact isWhiteSpace_of_isPlain (isPlain_of_isNumberChar (hx.2 _ List.mem_cons_self))

theorem head?_product (var : Text) (hx : NumberText x)
    (hr : ∀ c ∈ r.head?, isNumberChar c = false) :
    (product var (var ++ (" * ".toList ++ (x ++ r)))).head? = some (x, r) := by
  have htext : " * ".toList ++ (x ++ r) = [' '] ++ ("*".toList ++ ([' '] ++ (x ++ r))) := rfl
  have hstar : ∀ c ∈ ("*".toList ++ ([' '] ++ (x ++ r))).head?, isWhiteSpace c = false := by
    intro c hc
    obtain rfl := Option.some.inj hc
    decide
  rw [product, htext]
  exact head?_bind head?_lit (head?_bind (head?_spaces hstar) (head?_bind head?_lit
    (head?_bind (head?_spaces (not_blank_of_number hx)) (head?_many1 hx.1 hx.2 hr))))

/-- What is written for a summand. -/
def summandText (z : Text × Text) : Text := " + ".toList ++ (z.1 ++ (" * ".toList ++ z.2))

theorem head?_summand (hvar : VarText var) (hx : NumberText x)
    (hr : ∀ c ∈ r.head?, isNumberChar c = false) :
    (summand var (summandText (var, x) ++ r)).head? = some (x, r) := by
  have htext : summandText (var, x) ++ r =
      [' '] ++ ("+".toList ++ ([' '] ++ (var ++ (" * ".toList ++ (x ++ r))))) := by
    simp [summandText]
  have hplus : ∀ c ∈ ("+".toList ++ ([' '] ++ (var ++ (" * ".toList ++ (x ++ r))))).head?,
      isWhiteSpace c = false := by
    intro c hc
    obtain rfl := Option.some.inj hc
    decide
  have hblank : ∀ c ∈ (var ++ (" * ".toList ++ (x ++ r))).head?, isWhiteSpace c = false := by
    intro c hc
    obtain ⟨d, v, rfl⟩ := List.exists_cons_of_ne_nil hvar.1
    obtain rfl := Option.some.inj hc
    exact (hvar.2.2 _ List.mem_cons_self).2.2
  rw [summand, htext]
  exact head?_bind (head?_spaces hplus) (head?_bind head?_lit
    (head?_bind (head?_spaces hblank) (head?_product var hx hr)))

theorem summand_eq_nil (hvar : VarText var)
    (h : ∀ w, squash s ≠ '+' :: (var ++ '*' :: w)) : summand var s = [] := by
  refine List.eq_nil_iff_forall_not_mem.2 fun way hway => ?_
  obtain ⟨x, r⟩ := way
  obtain ⟨u, rfl, hu, hx⟩ := mem_summand hway
  refine h (x ++ squash r) ?_
  have hplus : squash "+".toList = ['+'] := by decide
  rw [squash_append, hu.squash, compact_cons, compact_termTokens ⟨hvar, hx⟩, hplus, termText]
  simp

theorem squash_summandText (hvar : VarText var) (s : Text) :
    squash (summandText (var, x) ++ s) = '+' :: (var ++ '*' :: (squash x ++ squash s)) := by
  have hplus : squash " + ".toList = ['+'] := by decide
  have hstar : squash " * ".toList = ['*'] := by decide
  have hsolid : squash var = var := squash_of_solid fun c hc => (hvar.2.2 c hc).2.2
  rw [summandText, squash_append, squash_append, squash_append, squash_append, hplus, hstar, hsolid]
  simp

theorem head_summands (zs : List (CacheVar × Text)) (hr : r.head? = some ')') :
    ∀ c ∈ (zs.flatMap (fun z => summandText (z.1.text, z.2)) ++ r).head?,
      isNumberChar c = false := by
  intro c hc
  cases zs with
  | nil =>
    obtain rfl := Option.some.inj (hr.symm.trans hc)
    decide
  | cons z zs =>
    obtain rfl := Option.some.inj hc
    decide

/-- The summands that are there, and none of the others. -/
theorem head?_optCacheStr (hzs : ∀ z ∈ zs, NumberText z.2) (hsub : (zs.map Prod.fst).Sublist cvs)
    (hcvs : cvs.Nodup) (hr : r.head? = some ')') :
    (optCacheStr cvs (zs.flatMap (fun z => summandText (z.1.text, z.2)) ++ r)).head? =
      some (zs, r) := by
  induction cvs generalizing zs with
  | nil =>
    obtain rfl := List.map_eq_nil_iff.1 (List.sublist_nil.1 hsub)
    rfl
  | cons cv cvs ih =>
    obtain ⟨hcv, hnodup⟩ := List.nodup_cons.1 hcvs
    -- a variable that is not there is skipped, since the next sign has another variable after it
    have hskip (hrest : (zs.map Prod.fst).Sublist cvs) :
        (optCacheStr (cv :: cvs) (zs.flatMap (fun z => summandText (z.1.text, z.2)) ++ r)).head? =
          some (zs, r) := by
      have hnone : summand cv.text
          (zs.flatMap (fun z => summandText (z.1.text, z.2)) ++ r) = [] := by
        refine summand_eq_nil (varText_cacheVar cv) fun w hw => ?_
        cases zs with
        | nil =>
          obtain ⟨s, rfl⟩ := List.head?_eq_some_iff.1 hr
          have hclose : squash (')' :: s) = ')' :: squash s := by
            rw [← List.singleton_append, squash_append]
            rfl
          rw [List.flatMap_nil, List.nil_append, hclose] at hw
          exact absurd (List.cons.inj hw).1 (by decide)
        | cons z zs =>
          rw [List.flatMap_cons, List.append_assoc,
            squash_summandText (varText_cacheVar z.1)] at hw
          have hstar : ∀ cv : CacheVar, ∀ c ∈ cv.text, (c != '*') = true := fun cv c hc =>
            bne_iff_ne.2 ((varText_cacheVar cv).2.2 c hc).1
          obtain ⟨hvars, -⟩ := run_cancel (hstar z.1) (hstar cv) (by simp) (by simp)
            (List.cons.inj hw).2
          exact hcv (cacheVar_text_injective hvars ▸ hrest.subset List.mem_cons_self)
      refine head?_bind (a := none) ?_ (head?_bind (ih hzs hrest hnodup) head?_pure)
      rw [optional_of_nil hnone]
      rfl
    cases zs with
    | nil => exact hskip (List.nil_sublist _)
    | cons z zs =>
      obtain ⟨hz, hrest⟩ := List.forall_mem_cons.1 hzs
      by_cases heq : z.1 = cv
      · subst heq
        have htail : (zs.map Prod.fst).Sublist cvs := (List.cons_sublist_cons.1 hsub)
        have hsummand := head?_summand (varText_cacheVar z.1) hz (head_summands zs hr)
        rw [List.flatMap_cons, List.append_assoc]
        exact head?_bind (head?_optional hsummand) (head?_bind (ih hrest htail hnodup) head?_pure)
      · exact hskip ((List.sublist_cons_iff.1 hsub).resolve_right (by
          rintro ⟨l, hl, -⟩
          exact heq (List.cons.inj hl).1))

/-- What is written for a body. -/
def bodyText (body : Body) : Text :=
  "p".toList ++ (" * ".toList ++ (body.input ++
    (summandText ("c".toList, body.output) ++
      body.cache.flatMap fun z => summandText (z.1.text, z.2))))

theorem head?_bodyPat (hbody : body.Valid) (hr : r.head? = some ')') :
    (bodyPat (bodyText body ++ r)).head? = some (body, r) := by
  have hsummands := head?_optCacheStr hbody.cache hbody.vars (by decide) hr
  have hc : VarText "c".toList := by decide
  have houtput := head?_summand hc hbody.output (head_summands body.cache hr)
  have hspace : ∀ c ∈ (summandText ("c".toList, body.output) ++
      (body.cache.flatMap (fun z => summandText (z.1.text, z.2)) ++ r)).head?,
        isNumberChar c = false := by
    intro c hc
    obtain rfl := Option.some.inj hc
    decide
  have hinput := head?_product "p".toList hbody.input hspace
  rw [bodyPat, bodyText]
  simp only [List.append_assoc]
  exact head?_bind hinput (head?_bind houtput (head?_bind hsummands head?_pure))

theorem head?_tierPat (hlabel : '"' ∉ label) (hbody : body.Valid) :
    (tierPat (tierExpr label (bodyText body) ++ r)).head? = some ((label, body), r) := by
  have htext : tierExpr label (bodyText body) ++ r = "tier(\"".toList ++ (label ++
      ("\",".toList ++ ([' '] ++ (bodyText body ++ (")".toList ++ r))))) := by
    have hcomma : "\", ".toList = "\",".toList ++ [' '] := by decide
    rw [tierExpr_eq, hcomma]
    simp only [List.append_assoc]
  have hquote : ∀ c ∈ label, decide (c ≠ '"') = true := fun c hc =>
    decide_eq_true fun h => hlabel (h ▸ hc)
  have hend : ∀ c ∈ ("\",".toList ++ ([' '] ++ (bodyText body ++ (")".toList ++ r)))).head?,
      decide (c ≠ '"') = false := by
    intro c hc
    obtain rfl := Option.some.inj hc
    decide
  have hblank : ∀ c ∈ (bodyText body ++ (")".toList ++ r)).head?, isWhiteSpace c = false := by
    intro c hc
    obtain rfl := Option.some.inj hc
    decide
  rw [tierPat, htext]
  exact head?_bind head?_lit (head?_bind (head?_many hquote hend) (head?_bind head?_lit
    (head?_bind (head?_spaces hblank) (head?_bind (head?_bodyPat hbody rfl)
      (head?_bind head?_lit head?_pure)))))

/-! #### Conditions -/

/-- A number of a condition as it is written. -/
def CountText (n : Text) : Prop := n ≠ [] ∧ ∀ c ∈ n, isCountChar c = true

/-- What is written for a condition. -/
def conditionLine (c : ConditionVar × Op × Text) : Text :=
  c.1.text ++ (" ".toList ++ (c.2.1.text ++ (" ".toList ++ c.2.2)))

theorem not_blank_of_count (hn : CountText n) : ∀ c ∈ (n ++ r).head?, isWhiteSpace c = false := by
  intro c hc
  obtain ⟨d, n, rfl⟩ := List.exists_cons_of_ne_nil hn.1
  obtain rfl := Option.some.inj hc
  exact isWhiteSpace_of_isPlain (isPlain_of_isCountChar (hn.2 _ List.mem_cons_self))

/-- `<` is tried before `<=`, and no number begins with `=`. -/
theorem number_eq_nil {α : Type} {f : Text → Matcher α} :
    (spaces >>= fun _ => many1 isCountChar >>= f) ('=' :: r) = [] := by
  refine List.eq_nil_iff_forall_not_mem.2 fun way hway => ?_
  obtain ⟨u, s, hspaces, hrest⟩ := mem_bind.1 hway
  obtain ⟨n, s', hn, -⟩ := mem_bind.1 hrest
  obtain ⟨heq, hblank⟩ := mem_spaces.1 hspaces
  obtain ⟨rfl, hne, hall⟩ := mem_many1.1 hn
  cases u with
  | nil =>
    obtain ⟨d, n, rfl⟩ := List.exists_cons_of_ne_nil hne
    obtain ⟨rfl, -⟩ := List.cons.inj heq
    exact absurd (hall _ List.mem_cons_self) (by decide)
  | cons d u =>
    obtain ⟨rfl, -⟩ := List.cons.inj heq
    exact absurd (hblank _ List.mem_cons_self) (by decide)

theorem op_alternatives (op : Op) : ∃ pre post : List Op, [.lt, .le, .gt, .ge] = pre ++ op :: post ∧
    ∀ x ∈ pre, ∀ s t, op.text ++ s = x.text ++ t → t = '=' :: s := by
  have hne : ∀ {c d : Char} {s t : Text}, c ≠ d → c :: s ≠ d :: t := fun h heq =>
    h (List.cons.inj heq).1
  cases op with
  | lt => exact ⟨[], [.le, .gt, .ge], rfl, fun _ h => absurd h List.not_mem_nil⟩
  | le =>
    refine ⟨[.lt], [.gt, .ge], rfl, List.forall_mem_singleton.2 fun s t h => ?_⟩
    exact (List.cons.inj h).2.symm
  | gt =>
    refine ⟨[.lt, .le], [.ge], rfl, ?_⟩
    rintro x hx s t h
    obtain rfl | hx := List.mem_cons.1 hx
    · exact absurd h (hne (by decide))
    · obtain rfl := List.mem_singleton.1 hx
      exact absurd h (hne (by decide))
  | ge =>
    refine ⟨[.lt, .le, .gt], [], rfl, ?_⟩
    rintro x hx s t h
    obtain rfl | hx := List.mem_cons.1 hx
    · exact absurd h (hne (by decide))
    obtain rfl | hx := List.mem_cons.1 hx
    · exact absurd h (hne (by decide))
    · obtain rfl := List.mem_singleton.1 hx
      exact (List.cons.inj h).2.symm

theorem var_alternatives (v : ConditionVar) :
    ∃ pre post : List ConditionVar, [.p, .c, .len] = pre ++ v :: post ∧
      ∀ x ∈ pre, ∀ s t, v.text ++ s ≠ x.text ++ t := by
  have hne : ∀ {c d : Char} {s t : Text}, c ≠ d → c :: s ≠ d :: t := fun h heq =>
    h (List.cons.inj heq).1
  cases v with
  | p => exact ⟨[], [.c, .len], rfl, fun _ h => absurd h List.not_mem_nil⟩
  | c => exact ⟨[.p], [.len], rfl, List.forall_mem_singleton.2 fun s t => hne (by decide)⟩
  | len =>
    refine ⟨[.p, .c], [], rfl, ?_⟩
    rintro x hx s t
    obtain rfl | hx := List.mem_cons.1 hx
    · exact hne (by decide)
    · obtain rfl := List.mem_singleton.1 hx
      exact hne (by decide)

theorem head?_condition (hn : CountText c.2.2) (hr : ∀ d ∈ r.head?, isCountChar d = false) :
    (condition (conditionLine c ++ r)).head? = some (c, r) := by
  obtain ⟨v, op, n⟩ := c
  have hline : conditionLine (v, op, n) ++ r =
      v.text ++ ([' '] ++ (op.text ++ ([' '] ++ (n ++ r)))) := by
    simp [conditionLine]
  have hop : ∀ d ∈ (op.text ++ ([' '] ++ (n ++ r))).head?, isWhiteSpace d = false := by
    intro d hd
    obtain ⟨e, s, htext, he⟩ : ∃ e s, op.text = e :: s ∧ isWhiteSpace e = false := by
      cases op <;> exact ⟨_, _, rfl, by decide⟩
    rw [htext] at hd
    obtain rfl := Option.some.inj hd
    exact he
  obtain ⟨ops, ops', hops, hopsBefore⟩ := op_alternatives op
  obtain ⟨vs, vs', hvs, hvsBefore⟩ := var_alternatives v
  rw [condition, hline, hvs, hops]
  refine head?_oneOf_bind (fun x hx t h => absurd h (hvsBefore x hx _ t))
    (head?_bind (head?_spaces hop) (head?_oneOf_bind (fun x hx t h => ?_)
      (head?_bind (head?_spaces (not_blank_of_count hn))
        (head?_bind (head?_many1 hn.1 hn.2 hr) head?_pure))))
  rw [hopsBefore x hx _ t h]
  exact number_eq_nil

/-- What is written for conditions. -/
def conditionLines (c : ConditionVar × Op × Text) (cs : List (ConditionVar × Op × Text)) : Text :=
  conditionLine c ++ cs.flatMap fun c => " && ".toList ++ conditionLine c

theorem andSign_eq_nil (h : (squash s).head? ≠ some '&') : andSign s = [] := by
  refine List.eq_nil_iff_forall_not_mem.2 fun way hway => h ?_
  have hmem : (way.1, way.2) ∈ andSign s := hway
  obtain ⟨b, b', rfl, hb, -⟩ := mem_andSign hmem
  rw [squash_append, squash_of_blank hb, squash_append]
  rfl

theorem not_blank_of_line : ∀ d ∈ (conditionLine c ++ r).head?, isWhiteSpace d = false := by
  intro d hd
  obtain ⟨e, s, htext, he⟩ : ∃ e s, c.1.text = e :: s ∧ isWhiteSpace e = false := by
    cases c.1 <;> exact ⟨_, _, rfl, by decide⟩
  rw [conditionLine, htext] at hd
  obtain rfl := Option.some.inj hd
  exact he

theorem head?_andSign :
    (andSign (" && ".toList ++ (conditionLine c ++ r))).head? =
      some ((), conditionLine c ++ r) := by
  have htext : " && ".toList ++ (conditionLine c ++ r) =
      [' '] ++ ("&&".toList ++ ([' '] ++ (conditionLine c ++ r))) := rfl
  have hand : ∀ d ∈ ("&&".toList ++ ([' '] ++ (conditionLine c ++ r))).head?,
      isWhiteSpace d = false := by
    intro d hd
    obtain rfl := Option.some.inj hd
    decide
  rw [andSign, htext]
  exact head?_bind (head?_spaces hand) (head?_bind head?_lit
    (head?_bind (head?_spaces not_blank_of_line) head?_pure))

theorem head_afterCondition (cs : List (ConditionVar × Op × Text)) (w : Text) :
    ∀ d ∈ (cs.flatMap (fun c => " && ".toList ++ conditionLine c) ++
      (" ? ".toList ++ w)).head?, isCountChar d = false := by
  intro d hd
  cases cs with
  | nil =>
    obtain rfl := Option.some.inj hd
    decide
  | cons c cs =>
    obtain rfl := Option.some.inj hd
    decide

theorem head?_times_condition {w : Text} (hcs : ∀ c ∈ cs, CountText c.2.2) {k : ℕ}
    (hk : cs.length ≤ k) :
    (times (andSign >>= fun _ => condition) k
        (cs.flatMap (fun c => " && ".toList ++ conditionLine c) ++ (" ? ".toList ++ w))).head? =
      some (cs, " ? ".toList ++ w) := by
  induction cs generalizing k with
  | nil =>
    refine head?_times_zero (bind_eq_nil (andSign_eq_nil ?_))
    have hsign : squash " ? ".toList = ['?'] := by decide
    rw [List.flatMap_nil, List.nil_append, squash_append, hsign]
    exact fun h => absurd (Option.some.inj h) (by decide)
  | cons c cs ih =>
    obtain ⟨hc, hcs⟩ := List.forall_mem_cons.1 hcs
    rw [List.length_cons] at hk
    obtain ⟨k, rfl⟩ : ∃ j, k = j + 1 := Nat.exists_eq_add_one.2 (by omega)
    have hfirst := head?_condition hc (head_afterCondition cs w)
    rw [List.flatMap_cons, List.append_assoc, List.append_assoc]
    exact head?_times_succ (head?_bind head?_andSign hfirst)
      (ih hcs (by omega))

theorem length_le_flatMap (cs : List (ConditionVar × Op × Text)) :
    cs.length ≤ (cs.flatMap fun c => " && ".toList ++ conditionLine c).length := by
  induction cs with
  | nil => exact le_rfl
  | cons c cs ih =>
    rw [List.flatMap_cons, List.length_append, List.length_cons, List.length_append]
    have hand : " && ".toList.length = 4 := by decide
    omega

theorem head?_condGroup {w : Text} (hc : CountText c.2.2) (hcs : ∀ c ∈ cs, CountText c.2.2) :
    (condGroup (conditionLines c cs ++ (" ? ".toList ++ w))).head? =
      some (conditionLines c cs, " ? ".toList ++ w) := by
  refine head?_captured (a := c :: cs) ?_
  have hfirst := head?_condition hc (head_afterCondition cs w)
  have hlen : cs.length ≤ (cs.flatMap (fun c => " && ".toList ++ conditionLine c) ++
      (" ? ".toList ++ w)).length := by
    rw [List.length_append]
    exact (length_le_flatMap cs).trans (Nat.le_add_right _ _)
  rw [conditionLines, List.append_assoc]
  exact head?_bind hfirst (head?_bind (head?_times_condition hcs hlen) head?_pure)

/-- **A tier with conditions**: the first way in which the expression matches takes the conditions,
the label and the body that were written. -/
theorem head?_tierRe_of_conditions (hc : CountText c.2.2) (hcs : ∀ c ∈ cs, CountText c.2.2)
    (hlabel : '"' ∉ label) (hbody : body.Valid) :
    (tierRe
        (conditionLines c cs ++ (" ? ".toList ++ (tierExpr label (bodyText body) ++ r)))).head? =
      some ((some (conditionLines c cs), label, body), r) := by
  have hsign : " ? ".toList ++ (tierExpr label (bodyText body) ++ r) =
      [' '] ++ ("?".toList ++ ([' '] ++ (tierExpr label (bodyText body) ++ r))) := rfl
  have hquestion : ∀ d ∈ ("?".toList ++ ([' '] ++ (tierExpr label (bodyText body) ++ r))).head?,
      isWhiteSpace d = false := by
    intro d hd
    obtain rfl := Option.some.inj hd
    decide
  have htier : ∀ d ∈ (tierExpr label (bodyText body) ++ r).head?, isWhiteSpace d = false := by
    intro d hd
    obtain rfl := Option.some.inj hd
    decide
  rw [tierRe]
  refine head?_bind (head?_optional (head?_bind (head?_condGroup hc hcs)
    (a := conditionLines c cs) ?_)) (head?_bind (head?_tierPat hlabel hbody) head?_pure)
  rw [hsign]
  exact head?_bind (head?_spaces hquestion) (head?_bind head?_lit
    (head?_bind (head?_spaces htier) head?_pure))

theorem condGroup_eq_nil (h : ∀ v : ConditionVar, s.head? ≠ v.text.head?) : condGroup s = [] := by
  have hcondition : condition s = [] := by
    refine List.eq_nil_iff_forall_not_mem.2 fun way hway => ?_
    have hmem : (way.1, way.2) ∈ condition s := hway
    simp only [condition, mem_bind, mem_oneOf] at hmem
    obtain ⟨v, s₁, ⟨-, rfl⟩, -⟩ := hmem
    refine h v ?_
    cases v <;> rfl
  rw [condGroup, captured, bind_eq_nil hcondition]
  rfl

/-- **A tier without conditions**: the optional group takes nothing, and the label and the body are
those that were written. -/
theorem head?_tierRe (hlabel : '"' ∉ label) (hbody : body.Valid) :
    (tierRe (tierExpr label (bodyText body) ++ r)).head? = some ((none, label, body), r) := by
  have hnone : condGroup (tierExpr label (bodyText body) ++ r) = [] := by
    refine condGroup_eq_nil fun v hv => ?_
    have hhead : (tierExpr label (bodyText body) ++ r).head? = some 't' := rfl
    rw [hhead] at hv
    cases v <;> exact absurd hv (by decide)
  rw [tierRe]
  refine head?_bind (a := none) ?_ (head?_bind (head?_tierPat hlabel hbody) head?_pure)
  rw [optional_of_nil (bind_eq_nil hnone)]
  rfl

/-- Nothing is matched where neither a condition nor a tier can begin. -/
theorem tierRe_eq_nil (h : ∀ v : ConditionVar, s.head? ≠ v.text.head?) (ht : s.head? ≠ some 't') :
    tierRe s = [] := by
  have htier : tierPat s = [] := by
    rw [tierPat]
    exact bind_eq_nil (lit_eq_nil ht)
  refine List.eq_nil_iff_forall_not_mem.2 fun way hway => ?_
  have hmem : (way.1, way.2) ∈ tierRe s := hway
  rw [tierRe, mem_bind] at hmem
  obtain ⟨cond, s', hcond, hrest⟩ := hmem
  rw [mem_optional, bind_eq_nil (condGroup_eq_nil h)] at hcond
  obtain ⟨a, rfl, ha⟩ | ⟨rfl, rfl⟩ := hcond
  · exact absurd ha List.not_mem_nil
  · rw [bind_eq_nil htier] at hrest
    exact absurd hrest List.not_mem_nil

end First

/-! ### Conditions one by one -/

section Conditions

variable {s v : Text} {cs : List (ConditionVar × Op × Text)} {c : ConditionVar × Op × Text}

theorem mem_conditionLine (hc : CountText c.2.2) : '&' ∉ conditionLine c := by
  have hspace : '&' ∉ " ".toList := by decide
  have hvar : '&' ∉ c.1.text := by cases c.1 <;> decide
  have hop : '&' ∉ c.2.1.text := by cases c.2.1 <;> decide
  have hnumber : '&' ∉ c.2.2 := fun h => absurd (hc.2 _ h) (by decide)
  simp only [conditionLine, List.mem_append, hvar, hspace, hop, hnumber, or_self, not_false_eq_true]

theorem getLast_conditionLine (hc : CountText c.2.2) :
    ∀ d ∈ (conditionLine c).getLast?, isWhiteSpace d = false := by
  intro d hd
  rw [conditionLine, ← List.append_assoc, ← List.append_assoc, ← List.append_assoc,
    List.getLast?_append_of_ne_nil _ hc.1] at hd
  exact isWhiteSpace_of_isPlain (isPlain_of_isCountChar (hc.2 _ (List.mem_of_getLast? hd)))

theorem andSign_suffix (hc : CountText c.2.2) (hv : v <:+ conditionLine c) (hne : v ≠ []) :
    andSign (v ++ s) = [] := by
  have hlast : v.getLast hne ∈ squash v := by
    refine List.mem_filter.2 ⟨List.getLast_mem hne, ?_⟩
    obtain ⟨u, hu⟩ := hv
    have hblank := getLast_conditionLine hc (v.getLast hne) (by
      rw [← hu, List.getLast?_append_of_ne_nil _ hne, List.getLast?_eq_some_getLast hne]
      rfl)
    simp [hblank]
  obtain ⟨d, w, hw⟩ := List.exists_cons_of_ne_nil (List.ne_nil_of_mem hlast)
  refine andSign_eq_nil ?_
  rw [squash_append, hw]
  intro hd
  obtain rfl := Option.some.inj hd
  have hmem : '&' ∈ squash v := hw ▸ List.mem_cons_self
  exact mem_conditionLine hc (hv.subset (List.mem_of_mem_filter hmem))

theorem split_conditionLines (hc : CountText c.2.2) (hcs : ∀ c ∈ cs, CountText c.2.2) {k : ℕ}
    (hk : cs.length ≤ k) :
    split andSign k (conditionLines c cs) = (c :: cs).map conditionLine := by
  induction cs generalizing c k with
  | nil =>
    have hnone : exec andSign (conditionLine c ++ []) = none := by
      rw [exec_append fun v hv hne => andSign_suffix hc hv hne]
      rfl
    rw [conditionLines, List.flatMap_nil]
    cases k with
    | zero => simp [split]
    | succ k => rw [split, hnone]; simp
  | cons d cs ih =>
    obtain ⟨hd, hcs⟩ := List.forall_mem_cons.1 hcs
    rw [List.length_cons] at hk
    obtain ⟨k, rfl⟩ : ∃ j, k = j + 1 := Nat.exists_eq_add_one.2 (by omega)
    have hlines : conditionLines c (d :: cs) =
        conditionLine c ++ (" && ".toList ++ conditionLines d cs) := by
      rw [conditionLines, List.flatMap_cons, List.append_assoc]
      rfl
    have hand : (andSign (" && ".toList ++ conditionLines d cs)).head? =
        some ((), conditionLines d cs) := head?_andSign
    have hexec : exec andSign (conditionLines c (d :: cs)) =
        some (conditionLine c, (), conditionLines d cs) := by
      rw [hlines, exec_append fun v hv hne => andSign_suffix hc hv hne, exec_of_head? hand,
        Option.map_some, List.append_nil]
    have hrest := ih hd hcs (k := k) (by omega)
    rw [split, hexec, List.map_cons, ← hrest]

variable {ν : Type} (js : Numbers ν)

/-- **The conditions come back**: what is split at `&&` are the conditions that were joined with it.
-/
theorem parseConditions_conditionLines (hc : CountText c.2.2) (hcs : ∀ c ∈ cs, CountText c.2.2) :
    parseConditions js (conditionLines c cs) =
      (c :: cs).map fun z => ⟨some z.1, some z.2.1, numberOf js z.2.2⟩ := by
  have hne : ¬(conditionLines c cs).isEmpty = true := by
    rw [List.isEmpty_iff, conditionLines, conditionLine]
    cases hv : c.1 <;> simp [ConditionVar.text]
  have hlen : cs.length ≤ (conditionLines c cs).length := by
    rw [conditionLines, List.length_append]
    exact (length_le_flatMap cs).trans (Nat.le_add_left _ _)
  have hline : ∀ z ∈ c :: cs, (matchWhole condition (trim (conditionLine z))) = some z := by
    intro z hz
    have hz' : CountText z.2.2 := by
      obtain rfl | hz := List.mem_cons.1 hz
      · exact hc
      · exact hcs z hz
    have htrim : trim (conditionLine z) = conditionLine z :=
      trim_of_ends (fun d hd => not_blank_of_line (c := z) (r := []) d (by rwa [List.append_nil]))
        (getLast_conditionLine hz')
    have hfirst := head?_condition (r := []) hz' fun d hd => absurd hd (by simp)
    rw [List.append_nil] at hfirst
    rw [htrim, matchWhole_of_head? hfirst]
  rw [parseConditions, if_neg hne, split_conditionLines hc hcs hlen, List.filterMap_map,
    ← List.filterMap_eq_map]
  refine List.filterMap_congr fun z hz => ?_
  rw [Function.comp_apply, hline z hz]
  rfl

end Conditions

/-! ### All the tiers -/

section Parts

variable {s r : Text} {part : Part} {parts : List Part}

/-- What is written for conditions before a tier. -/
def guardText : List (ConditionVar × Op × Text) → Text
  | [] => []
  | c :: cs => conditionLines c cs ++ " ? ".toList

def Part.text (part : Part) : Text :=
  guardText part.conditions ++ tierExpr part.label (bodyText part.body)

/-- The text of the conditions that is captured. -/
def capturedText : List (ConditionVar × Op × Text) → Option Text
  | [] => none
  | c :: cs => some (conditionLines c cs)

/-- What the groups of the expression capture of a part: the conditions, if there are any, the label
and the numbers. -/
def Part.found (part : Part) : Option Text × Text × Body :=
  (capturedText part.conditions, part.label, part.body)

/-- The numbers of the conditions are taken by the class of their expression. -/
structure Part.Readable (part : Part) : Prop where
  conditions : ∀ c ∈ part.conditions, CountText c.2.2
  label : '"' ∉ part.label
  body : part.body.Valid

theorem head?_part (h : part.Readable) :
    (tierRe (part.text ++ r)).head? = some (part.found, r) := by
  obtain ⟨conditions, label, body⟩ := part
  cases conditions with
  | nil => exact head?_tierRe h.label h.body
  | cons c cs =>
    obtain ⟨hc, hcs⟩ := List.forall_mem_cons.1 h.conditions
    have htext : Part.text ⟨c :: cs, label, body⟩ ++ r =
        conditionLines c cs ++ (" ? ".toList ++ (tierExpr label (bodyText body) ++ r)) := by
      simp only [Part.text, guardText, List.append_assoc]
    rw [htext]
    exact head?_tierRe_of_conditions hc hcs h.label h.body

theorem exec_nil : exec tierRe [] = none := by
  rw [exec, tierRe_eq_nil (fun v => by cases v <;> decide) (by decide)]
  rfl

theorem exec_following (h : part.Readable) :
    exec tierRe (" : ".toList ++ (part.text ++ r)) = some (" : ".toList, part.found, r) := by
  have hskip : ∀ v, v <:+ " : ".toList → v ≠ [] → tierRe (v ++ (part.text ++ r)) = [] := by
    intro v hv hne
    obtain ⟨d, w, rfl⟩ := List.exists_cons_of_ne_nil hne
    have hd : d = ' ' ∨ d = ':' := by
      have hmem : d ∈ " : ".toList := hv.subset List.mem_cons_self
      simpa [or_comm] using hmem
    refine tierRe_eq_nil (fun v hv => ?_) fun ht => ?_
    · have hhead : some d = v.text.head? := hv
      obtain rfl | rfl := hd <;> cases v <;> exact absurd hhead (by decide)
    · have hhead : some d = some 't' := ht
      obtain rfl | rfl := hd <;> exact absurd hhead (by decide)
  rw [exec_append hskip, exec_of_head? (head?_part h), Option.map_some, List.append_nil]

theorem execAll_following (h : ∀ part ∈ parts, part.Readable) {k : ℕ} (hk : parts.length ≤ k) :
    (execAll tierRe k (parts.flatMap fun part => " : ".toList ++ part.text)).map (·.2.1) =
      parts.map Part.found := by
  induction parts generalizing k with
  | nil =>
    cases k with
    | zero => rfl
    | succ k =>
      rw [List.flatMap_nil, execAll, exec_nil]
      rfl
  | cons part parts ih =>
    obtain ⟨hpart, hparts⟩ := List.forall_mem_cons.1 h
    rw [List.length_cons] at hk
    obtain ⟨k, rfl⟩ : ∃ j, k = j + 1 := Nat.exists_eq_add_one.2 (by omega)
    rw [List.flatMap_cons, List.append_assoc, execAll, exec_following hpart]
    exact congrArg (part.found :: ·) (ih hparts (by omega))

theorem length_text_pos (part : Part) : 0 < part.text.length := by
  rw [Part.text, List.length_append, tierExpr_eq]
  have htier : "tier(\"".toList.length = 6 := by decide
  simp only [List.length_append, htier]
  omega

theorem length_le_following (parts : List Part) :
    parts.length ≤ (parts.flatMap fun part => " : ".toList ++ part.text).length := by
  induction parts with
  | nil => exact le_rfl
  | cons part parts ih =>
    have hpos := length_text_pos part
    simp only [List.flatMap_cons, List.length_append, List.length_cons]
    omega

/-- **Every tier is matched**, one after the other. -/
theorem execAll_parts (hpart : part.Readable) (hparts : ∀ part ∈ parts, part.Readable) :
    (execAll tierRe
        (part.text ++ parts.flatMap fun part => " : ".toList ++ part.text).length
        (part.text ++ parts.flatMap fun part => " : ".toList ++ part.text)).map (·.2.1) =
      (part :: parts).map Part.found := by
  have hpos := length_text_pos part
  have hlen := length_le_following parts
  obtain ⟨k, hk⟩ : ∃ j, (part.text ++
      parts.flatMap fun part => " : ".toList ++ part.text).length = j + 1 :=
    Nat.exists_eq_add_one.2 (by rw [List.length_append]; omega)
  rw [hk, execAll, exec_of_head? (head?_part hpart)]
  refine congrArg (part.found :: ·) (execAll_following hparts ?_)
  rw [List.length_append] at hk
  omega

end Parts

/-! ### Configurations -/

section Configurations

variable {ν : Type} [DecidableEq ν] (js : Numbers ν) {t : Tier ν} {tiers : List (Tier ν)}
  {cfg : Config ν} {label : Text} {count i : ℕ}

/-- A condition that is written. -/
def Condition.isComplete : Condition ν → Bool
  | ⟨some _, some _, .num _⟩ => true
  | ⟨some _, some _, .nan⟩ => true
  | _ => false

/-- A number that is written without a minus sign: a natural number, or another one (`1.5`) whose
text has none. The pattern of a condition reads `[\d.eE+]+`, so that what is written for `-1` and
for `1e-7` is not read back. -/
def Numbers.Unsigned (n : ν) : Prop := (∃ k : ℕ, js.value n = k) ∨ '-' ∉ js.print n

omit [DecidableEq ν] in
theorem Numbers.not_mem_print_of_unsigned {n : ν} (h : js.Unsigned n) : '-' ∉ js.print n := by
  rcases h with ⟨k, hnatural⟩ | hprint
  · exact js.print_natural n k hnatural
  · exact hprint

/-- A configuration whose tiers have conditions on numbers of tokens, but for the last one, and
whose labels have no quotes. -/
structure Editable (cfg : Config ν) : Prop where
  tiers : cfg.tiers ≠ []
  conditions : ∀ t ∈ cfg.tiers.dropLast, ∃ c ∈ t.conditions, c.isComplete = true
  values : ∀ t ∈ cfg.tiers, ∀ c ∈ t.conditions, c.isComplete = true →
    ∃ n, c.value = .num n ∧ js.Unsigned n
  last : ∀ t ∈ cfg.tiers.getLast?, ∀ c ∈ t.conditions, c.isComplete = false
  labels : ∀ t ∈ cfg.tiers, '"' ∉ t.label

/-- What is kept of a tier. -/
def normalTier (label : Text) (t : Tier ν) : Tier ν :=
  normalizeVisualTier js {
    conditions := t.conditions.filter Condition.isComplete
    input_unit_cost := .num (t.input_unit_cost.amount js)
    output_unit_cost := .num (t.output_unit_cost.amount js)
    cost := fun cv =>
      if (t.cost cv).amount js = js.zero then .missing else .num ((t.cost cv).amount js)
    label := label
    cache_mode := none }

/-- What is kept of a configuration. -/
def normalConfig (cfg : Config ν) : Config ν :=
  match cfg.tiers with
  | [t] => ⟨[normalTier js (if t.label.isEmpty then "default".toList else t.label) t]⟩
  | tiers => ⟨tiers.mapIdx fun i t =>
      normalTier js (if t.label.isEmpty then defaultLabel i else t.label) t⟩

/-! #### What is written, as texts -/

theorem intercalate_cons (sep a : Text) (l : List Text) :
    sep.intercalate (a :: l) = a ++ l.flatMap (sep ++ ·) := by
  induction l generalizing a with
  | nil => simp
  | cons b l ih =>
    rw [List.intercalate_cons_cons, ih, List.flatMap_cons]
    simp

theorem buildTierBodyExpr_eq : buildTierBodyExpr js t = bodyText (t.body js) := by
  rw [buildTierBodyExpr, intercalate_cons, List.flatMap_cons, List.flatMap_map, bodyText, Tier.body,
    List.flatMap_map]
  simp only [term, summandText, List.append_assoc]

omit [DecidableEq ν] in
theorem buildConditionStr_eq_captured :
    buildConditionStr js t.conditions = (capturedText (t.cuts js)).getD [] := by
  have hand : " ".toList ++ "&&".toList ++ " ".toList = " && ".toList := by decide
  rw [buildConditionStr_eq, ← Tier.cuts, hand]
  cases t.cuts js with
  | nil => rfl
  | cons c cs =>
    rw [List.map_cons, intercalate_cons, List.flatMap_map]
    rfl

theorem tierPart_eq : tierPart js count i t = (partOf js count i t).text := by
  rw [Part.text, tierPart, partOf, buildTierBodyExpr_eq, buildConditionStr_eq_captured]
  cases hcuts : t.cuts js with
  | nil => simp [capturedText, guardText]
  | cons c cs =>
    have hne : (capturedText (c :: cs)).getD [] ≠ [] := by
      rw [capturedText, Option.getD_some, conditionLines, conditionLine]
      cases c.1 <;> simp [ConditionVar.text]
    by_cases hi : i < count - 1
    · rw [if_pos ⟨hi, hne⟩, if_pos hi]
      rfl
    · rw [if_neg fun h => hi h.1, if_neg hi]
      rfl

/-! #### What is kept -/

omit [DecidableEq ν] in
theorem isComplete_iff {c : Condition ν} : c.isComplete = true ↔ (c.cut js).isSome = true := by
  obtain ⟨v, op, value⟩ := c
  cases v <;> cases op <;> cases value <;> simp [Condition.isComplete, Condition.cut]

omit [DecidableEq ν] in
theorem cuts_ne_nil (h : ∃ c ∈ t.conditions, c.isComplete = true) : t.cuts js ≠ [] := by
  obtain ⟨c, hc, hcomplete⟩ := h
  obtain ⟨z, hz⟩ := Option.isSome_iff_exists.1 ((isComplete_iff js).1 hcomplete)
  exact List.ne_nil_of_mem (List.mem_filterMap.2 ⟨c, hc, hz⟩)

omit [DecidableEq ν] in
theorem cuts_eq_nil (h : ∀ c ∈ t.conditions, c.isComplete = false) : t.cuts js = [] := by
  refine List.filterMap_eq_nil_iff.2 fun c hc => ?_
  have hnot : ¬(c.cut js).isSome = true := by
    rw [← isComplete_iff, h c hc]
    exact Bool.false_ne_true
  simpa using hnot

omit [DecidableEq ν] in
theorem countText_cuts (h : ∀ c ∈ t.conditions, c.isComplete = true →
    ∃ n, c.value = .num n ∧ js.Unsigned n) : ∀ z ∈ t.cuts js, CountText z.2.2 := by
  intro z hz
  obtain ⟨c, hc, hcut⟩ := List.mem_filterMap.1 hz
  obtain ⟨n, hvalue, hunsigned⟩ := h c hc ((isComplete_iff js).2 (by rw [hcut]; rfl))
  obtain ⟨v, op, value⟩ := c
  obtain rfl : value = .num n := hvalue
  cases v <;> cases op <;> simp only [Condition.cut, reduceCtorEq, Option.some.injEq] at hcut
  subst hcut
  refine ⟨js.print_ne_nil n, fun d hd => ?_⟩
  have hminus : d ≠ '-' := fun h => js.not_mem_print_of_unsigned hunsigned (h ▸ hd)
  have hchars := js.print_chars n d hd
  simp only [isCountChar, Bool.or_eq_true, List.contains_iff_mem, List.mem_cons, List.not_mem_nil,
    or_false] at hchars ⊢
  tauto

omit [DecidableEq ν] in
/-- **The conditions that are written** are those that are kept. -/
theorem map_cuts {conditions : List (Condition ν)} (h : ∀ c ∈ conditions, c.isComplete = true →
    ∃ n, c.value = .num n ∧ js.Unsigned n) :
    (conditions.filterMap (Condition.cut js)).map
        (fun z => (⟨some z.1, some z.2.1, numberOf js z.2.2⟩ : Condition ν)) =
      conditions.filter Condition.isComplete := by
  induction conditions with
  | nil => rfl
  | cons c conditions ih =>
    obtain ⟨hc, hrest⟩ := List.forall_mem_cons.1 h
    cases hcomplete : c.isComplete with
    | false =>
      have hnone : c.cut js = none := by
        have hnot : ¬(c.cut js).isSome = true := by
          rw [← isComplete_iff, hcomplete]
          exact Bool.false_ne_true
        simpa using hnot
      rw [List.filterMap_cons_none hnone, List.filter_cons_of_neg (by simp [hcomplete]), ih hrest]
    | true =>
      obtain ⟨n, hvalue, -⟩ := hc hcomplete
      obtain ⟨v, op, value⟩ := c
      obtain rfl : value = .num n := hvalue
      rw [List.filter_cons_of_pos hcomplete, ← ih hrest]
      cases v <;> cases op <;> simp_all [Condition.isComplete, Condition.cut, numberOf,
        js.number_print]

theorem lookup_filter_map {α β : Type} [DecidableEq α] (p : α → Bool) (g : α → β) {l : List α}
    {a : α} (ha : a ∈ l) :
    ((l.filter p).map fun b => (b, g b)).lookup a = if p a then some (g a) else none := by
  by_cases hp : p a = true
  · rw [if_pos hp]
    induction l with
    | nil => exact absurd ha List.not_mem_nil
    | cons b l ih =>
      by_cases hab : a = b
      · subst hab
        rw [List.filter_cons_of_pos hp, List.map_cons, List.lookup_cons_self]
      · have hl := ih ((List.mem_cons.1 ha).resolve_left hab)
        by_cases hb : p b = true
        · rw [List.filter_cons_of_pos hb, List.map_cons, List.lookup_cons,
            beq_eq_false_iff_ne.2 hab]
          exact hl
        · rw [List.filter_cons_of_neg hb, hl]
  · rw [if_neg hp, List.lookup_eq_none_iff]
    intro z hz
    obtain ⟨b, hb, rfl⟩ := List.mem_map.1 hz
    refine bne_iff_ne.2 ?_
    rintro rfl
    exact hp (List.mem_filter.1 hb).2

theorem lookup_body (cv : CacheVar) :
    (((t.body js).cache.lookup cv).map (numberOf js)).getD .missing =
      if (t.cost cv).amount js = js.zero then .missing else .num ((t.cost cv).amount js) := by
  have hmem : cv ∈ cacheVarMap := by cases cv <;> decide
  rw [Tier.body, lookup_filter_map _ (fun cv => js.print ((t.cost cv).amount js)) hmem]
  by_cases hzero : (t.cost cv).amount js = js.zero
  · rw [if_neg (by simp [hzero]), if_pos hzero]
    rfl
  · rw [if_pos (by simp [hzero]), if_neg hzero, Option.map_some, numberOf, js.number_print]
    rfl

/-- **What is read back from a part** is what is kept of the tier. -/
theorem tierOf_found {part : Part} (hconditions : part.conditions = t.cuts js)
    (hbody : part.body = t.body js)
    (h : ∀ c ∈ t.conditions, c.isComplete = true →
      ∃ n, c.value = .num n ∧ js.Unsigned n) :
    tierOf js part.found = normalTier js part.label t := by
  have hparse : parseConditions js ((capturedText (t.cuts js)).getD []) =
      t.conditions.filter Condition.isComplete := by
    rw [← map_cuts js h, ← Tier.cuts]
    have hcount := countText_cuts js h
    cases hcuts : t.cuts js with
    | nil => rfl
    | cons c cs =>
      rw [hcuts] at hcount
      obtain ⟨hc, hcs⟩ := List.forall_mem_cons.1 hcount
      exact parseConditions_conditionLines js hc hcs
  have hread : readTier js (parseConditions js (part.found.1.getD [])) part.found.2.1
      part.found.2.2 = {
        conditions := t.conditions.filter Condition.isComplete
        input_unit_cost := .num (t.input_unit_cost.amount js)
        output_unit_cost := .num (t.output_unit_cost.amount js)
        cost := fun cv =>
          if (t.cost cv).amount js = js.zero then .missing else .num ((t.cost cv).amount js)
        label := part.label
        cache_mode := none } := by
    have hcost : (fun cv => (((t.body js).cache.lookup cv).map (numberOf js)).getD .missing) =
        fun cv => if (t.cost cv).amount js = js.zero then Value.missing
          else .num ((t.cost cv).amount js) := funext fun cv => lookup_body js cv
    rw [Part.found, hconditions, hbody, hparse, readTier, hcost]
    simp only [Tier.body, numberOf, js.number_print]
    rfl
  rw [tierOf, hread, normalTier]

theorem cuts_normalTier : (normalTier js label t).cuts js = t.cuts js := by
  rw [Tier.cuts, Tier.cuts, normalTier, normalizeVisualTier, List.filterMap_filter]
  refine List.filterMap_congr fun c _ => ?_
  split_ifs with hcomplete
  · rfl
  · rw [isComplete_iff js] at hcomplete
    exact (Option.not_isSome_iff_eq_none.1 hcomplete).symm

theorem body_normalTier : (normalTier js label t).body js = t.body js := by
  have hcost : ∀ cv : CacheVar,
      ((normalTier js label t).cost cv).amount js = (t.cost cv).amount js := by
    intro cv
    have hvalue : (normalTier js label t).cost cv =
        if (t.cost cv).amount js = js.zero then .missing else .num ((t.cost cv).amount js) := rfl
    rw [hvalue]
    split_ifs with hzero
    · exact hzero.symm
    · rfl
  rw [Tier.body, Tier.body]
  simp only [hcost]
  rfl

theorem partOf_normalTier :
    partOf js count i (normalTier js (if t.label.isEmpty then defaultLabel i else t.label) t) =
      partOf js count i t := by
  have hdefault : (defaultLabel i).isEmpty = false := rfl
  have hlabel : (if (if t.label.isEmpty then defaultLabel i else t.label).isEmpty
      then defaultLabel i else if t.label.isEmpty then defaultLabel i else t.label) =
        if t.label.isEmpty then defaultLabel i else t.label := by
    split_ifs <;> simp_all
  rw [partOf, partOf, cuts_normalTier, body_normalTier]
  exact congrArg (Part.mk _ · _) hlabel

theorem generate_of_length (h : 2 ≤ tiers.length) : generateExprFromVisualConfig js ⟨tiers⟩ =
    " : ".toList.intercalate (tiers.mapIdx (tierPart js tiers.length)) := by
  cases tiers with
  | nil => exact absurd h (by simp)
  | cons t tiers =>
    cases tiers with
    | nil => exact absurd h (by simp)
    | cons t' tiers => exact generate_cons_cons js

theorem normalConfig_of_length (h : 2 ≤ tiers.length) : normalConfig js ⟨tiers⟩ =
    ⟨tiers.mapIdx fun i t =>
      normalTier js (if t.label.isEmpty then defaultLabel i else t.label) t⟩ := by
  cases tiers with
  | nil => exact absurd h (by simp)
  | cons t tiers =>
    cases tiers with
    | nil => exact absurd h (by simp)
    | cons t' tiers => rfl

/-- **The same is written** for what is kept. -/
theorem generate_normalConfig :
    generateExprFromVisualConfig js (normalConfig js cfg) =
      generateExprFromVisualConfig js cfg := by
  obtain ⟨tiers⟩ := cfg
  cases tiers with
  | nil => rfl
  | cons t tiers =>
    cases tiers with
    | nil =>
      have hlabel : (onlyPart js (normalTier js
          (if t.label.isEmpty then "default".toList else t.label) t)).label =
            (onlyPart js t).label := by
        change (if (if t.label.isEmpty then "default".toList else t.label).isEmpty then
          "default".toList else if t.label.isEmpty then "default".toList else t.label) =
            if t.label.isEmpty then "default".toList else t.label
        split_ifs <;> simp_all
      rw [normalConfig, generate_singleton, generate_singleton, hlabel,
        buildConditionStr_eq_captured, buildConditionStr_eq_captured, cuts_normalTier,
        buildTierBodyExpr_eq, buildTierBodyExpr_eq, body_normalTier]
    | cons t' tiers =>
      have hlen : 2 ≤ (t :: t' :: tiers).length := Nat.le_add_left 2 _
      rw [normalConfig_of_length js hlen, generate_of_length js (by rwa [List.length_mapIdx]),
        generate_of_length js hlen, List.length_mapIdx, List.mapIdx_mapIdx]
      refine congrArg _ (List.mapIdx_eq_mapIdx_iff.2 fun i hi => ?_)
      rw [Function.comp_apply, tierPart_eq, partOf_normalTier, tierPart_eq]

theorem partOf_readable (h : Editable js cfg) (ht : t ∈ cfg.tiers) :
    (partOf js count i t).Readable where
  conditions := by
    intro c hc
    by_cases hi : i < count - 1
    · rw [partOf, if_pos hi] at hc
      exact countText_cuts js (h.values t ht) c hc
    · rw [partOf, if_neg hi] at hc
      exact absurd hc List.not_mem_nil
  label := by
    have hlabel : (partOf js count i t).label =
        if t.label.isEmpty then defaultLabel i else t.label := rfl
    rw [hlabel]
    split_ifs
    · exact (defaultLabel_ok i).1
    · exact h.labels t ht
  body := body_valid js t

/-- All complete conditions are written: the last tier has none. -/
theorem conditions_partOf (h : Editable js ⟨tiers⟩) (hi : i < tiers.length) :
    (partOf js tiers.length i tiers[i]).conditions = tiers[i].cuts js := by
  by_cases hlast : i < tiers.length - 1
  · exact if_pos hlast
  · have hget : tiers[i] ∈ tiers.getLast? := by
      rw [List.getLast?_eq_getElem?, show tiers.length - 1 = i by omega]
      exact List.getElem?_eq_getElem hi
    rw [partOf, if_neg hlast, cuts_eq_nil js (h.last _ hget)]

theorem tryParse_of_head {s : Text} {c : Char} (hs : s.head? = some c) (hc : c ≠ 'v') :
    tryParseVisualConfig js s = parseTiers js s := by
  have hversion : versionMatch s = none :=
    matchWhole_of_nil (bind_eq_nil (lit_eq_nil fun hv => hc (Option.some.inj (hs.symm.trans hv))))
  have hne : ¬s.isEmpty = true := by
    rw [List.isEmpty_iff]
    rintro rfl
    exact absurd hs (by simp)
  rw [tryParseVisualConfig, if_neg hne, hversion, Option.getD_none]

theorem tryParse_only (h : Editable js ⟨[t]⟩) :
    tryParseVisualConfig js (generateExprFromVisualConfig js ⟨[t]⟩) =
      some (normalConfig js ⟨[t]⟩) := by
  have hcuts : t.cuts js = [] := cuts_eq_nil js (h.last t rfl)
  have hcond : ¬buildConditionStr js t.conditions ≠ [] := fun hne =>
    hne ((buildConditionStr_eq_nil js).2 hcuts)
  have hlabel : '"' ∉ (onlyPart js t).label := by
    have heq : (onlyPart js t).label =
        if t.label.isEmpty then "default".toList else t.label := rfl
    rw [heq]
    split_ifs
    · decide
    · exact h.labels t List.mem_cons_self
  have hmatch : matchWhole tierPat (tierExpr (onlyPart js t).label (bodyText (t.body js))) =
      some ((onlyPart js t).label, t.body js) := by
    have hhead := head?_tierPat (r := []) hlabel (body_valid js t)
    rw [List.append_nil] at hhead
    exact matchWhole_of_head? hhead
  have hread : tierOf js (onlyPart js t).found = normalTier js (onlyPart js t).label t :=
    tierOf_found js rfl rfl (h.values t List.mem_cons_self)
  have hfound : (onlyPart js t).found = (none, (onlyPart js t).label, t.body js) := by
    rw [Part.found, onlyPart, hcuts]
    rfl
  have htier : normalizeVisualTier js (readTier js [] (onlyPart js t).label (t.body js)) =
      normalTier js (onlyPart js t).label t := by
    rw [← hread, hfound]
    rfl
  rw [generate_singleton, if_neg hcond, buildTierBodyExpr_eq,
    tryParse_of_head js (c := 't') rfl (by decide), parseTiers, hmatch]
  simp only [htier]
  rfl

theorem parseTiers_several {s : Text} (hnone : matchWhole tierPat s = none)
    (hfounds : ((execAll tierRe s.length s).map (·.2.1)).map (tierOf js) = tiers) (hne : tiers ≠ [])
    (hsame : generateExprFromVisualConfig js (normalizeVisualConfig js ⟨tiers⟩) = s) :
    parseTiers js s = some (normalizeVisualConfig js ⟨tiers⟩) := by
  rw [List.map_map] at hfounds
  have htiers : (execAll tierRe s.length s).map (fun found => normalizeVisualTier js
      (readTier js (parseConditions js (found.2.1.1.getD [])) found.2.1.2.1 found.2.1.2.2)) =
        tiers := hfounds
  rw [parseTiers, hnone]
  simp only [htiers]
  rw [if_neg (by simpa using hne), if_pos (by rw [hsame])]

theorem map_mapIdx {α β γ : Type} (f : ℕ → α → β) (g : β → γ) (l : List α) :
    (l.mapIdx f).map g = l.mapIdx fun i a => g (f i a) := by
  refine List.ext_getElem? fun i => ?_
  rw [List.getElem?_map, List.getElem?_mapIdx, List.getElem?_mapIdx, Option.map_map]
  rfl

/-- Several tiers: the text is not one of a single tier, each part is found in turn, and what is
written again is the text. -/
theorem tryParse_several (h : Editable js ⟨tiers⟩) (hlen : 2 ≤ tiers.length) :
    tryParseVisualConfig js (generateExprFromVisualConfig js ⟨tiers⟩) =
      some (normalConfig js ⟨tiers⟩) := by
  obtain ⟨part, parts, hparts⟩ : ∃ part parts,
      tiers.mapIdx (partOf js tiers.length) = part :: parts := by
    refine List.exists_cons_of_ne_nil fun hnil => ?_
    rw [List.mapIdx_eq_nil_iff] at hnil
    exact h.tiers hnil
  have hreadable : ∀ p ∈ part :: parts, p.Readable := by
    intro p hp
    rw [← hparts, List.mem_mapIdx] at hp
    obtain ⟨i, hi, rfl⟩ := hp
    exact partOf_readable js h (List.getElem_mem hi)
  obtain ⟨hpart, hrest⟩ := List.forall_mem_cons.1 hreadable
  have htext : generateExprFromVisualConfig js ⟨tiers⟩ =
      part.text ++ parts.flatMap fun part => " : ".toList ++ part.text := by
    have hmap : tiers.mapIdx (tierPart js tiers.length) = (part :: parts).map Part.text := by
      rw [← hparts, map_mapIdx]
      exact List.mapIdx_eq_mapIdx_iff.2 fun i hi => tierPart_eq js
    rw [generate_of_length js hlen, hmap, List.map_cons, intercalate_cons, List.flatMap_map]
  -- every tier gives its own part back
  have htiers : ((part :: parts).map Part.found).map (tierOf js) = tiers.mapIdx fun i t =>
      normalTier js (if t.label.isEmpty then defaultLabel i else t.label) t := by
    rw [← hparts, List.map_map, map_mapIdx]
    refine List.mapIdx_eq_mapIdx_iff.2 fun i hi => ?_
    exact tierOf_found js (conditions_partOf js h hi) rfl (h.values _ (List.getElem_mem hi))
  -- the first one has a condition, so that the text is not taken for a single tier
  obtain ⟨c, cs, hconditions⟩ : ∃ c cs, part.conditions = c :: cs := by
    have hpos : 0 < tiers.length := by omega
    have hdrop : 0 < tiers.dropLast.length := by
      rw [List.length_dropLast]
      omega
    have hfirst : tiers[0] ∈ tiers.dropLast := by
      rw [← List.getElem_dropLast hdrop]
      exact List.getElem_mem hdrop
    have hzero := congrArg (·[0]?) hparts
    simp only [List.getElem?_mapIdx, List.getElem?_eq_getElem hpos, Option.map_some,
      List.getElem?_cons_zero, Option.some.injEq] at hzero
    refine List.exists_cons_of_ne_nil ?_
    rw [← hzero, conditions_partOf js h hpos]
    exact cuts_ne_nil js (h.conditions _ hfirst)
  have hhead : (generateExprFromVisualConfig js ⟨tiers⟩).head? = c.1.text.head? := by
    rw [htext, Part.text, hconditions, guardText, conditionLines, conditionLine]
    cases c.1 <;> rfl
  obtain ⟨d, hd, hv, ht⟩ : ∃ d, c.1.text.head? = some d ∧ d ≠ 'v' ∧ d ≠ 't' := by
    cases c.1 <;> exact ⟨_, rfl, by decide, by decide⟩
  have hnone : matchWhole tierPat (generateExprFromVisualConfig js ⟨tiers⟩) = none :=
    matchWhole_of_nil (bind_eq_nil (lit_eq_nil fun heq =>
      ht (Option.some.inj (hd.symm.trans (hhead.symm.trans heq)))))
  have hnormal : normalizeVisualConfig js ⟨tiers.mapIdx fun i t =>
      normalTier js (if t.label.isEmpty then defaultLabel i else t.label) t⟩ =
        normalConfig js ⟨tiers⟩ := by
    have hne : ¬(tiers.mapIdx fun i t => normalTier js
        (if t.label.isEmpty then defaultLabel i else t.label) t).isEmpty = true := by
      simpa using h.tiers
    rw [normalizeVisualConfig, if_neg hne, map_mapIdx, normalConfig_of_length js hlen]
    rfl
  rw [tryParse_of_head js (hhead.trans hd) hv, ← hnormal]
  refine parseTiers_several js hnone ?_ ?_ ?_
  · rw [htext, execAll_parts hpart hrest, htiers]
  · rw [ne_eq, List.mapIdx_eq_nil_iff]
    exact h.tiers
  · rw [hnormal, generate_normalConfig]

/-- **What is written is read back**, as far as it is written. -/
theorem tryParse_generate (h : Editable js cfg) :
    tryParseVisualConfig js (generateExprFromVisualConfig js cfg) =
      some (normalConfig js cfg) := by
  obtain ⟨tiers⟩ := cfg
  obtain ⟨t, tiers, rfl⟩ := List.exists_cons_of_ne_nil h.tiers
  cases tiers with
  | nil => exact tryParse_only js h
  | cons t' tiers => exact tryParse_several js h (Nat.le_add_left 2 _)

end Configurations

end NewApiPool.TierEditor
