import Mathlib.Data.List.Forall2
import NewApiPool.Setting.TierTexts

/-!
# Texts that agree up to white space

The reader of several tiers compares what it would write with what it has read, both without white
space. White space inside a token is taken away too, and text that no match covers is compared as
well; so the two texts need not be made of the same tokens for this reason alone. They are
(`NewApiPool.TierEditor.spaced_of_runs`): what is written has no more quotes than the matches have,
so there are none outside them, and between two quotes the tokens can be taken off one by one.
-/

namespace NewApiPool.TierEditor

open JsText Backtrack

section Align

variable {s t r r' u w w' x x' n n' : Text} {p : Char → Bool} {body body' : Body}
  {zs zs' : List (Text × Text)} {cs cs' : List (ConditionVar × Op × Text)}
  {c c' : ConditionVar × Op × Text} {found : Option Text × Text × Body} {part : Part}
  {lead more : List Text}

theorem run_cancel (hx : ∀ c ∈ x, p c = true) (hx' : ∀ c ∈ x', p c = true)
    (hw : ∀ c ∈ w.head?, p c = false) (hw' : ∀ c ∈ w'.head?, p c = false)
    (h : x ++ w = x' ++ w') : x = x' ∧ w = w' := by
  have hrun : ∀ {x w : Text}, (∀ c ∈ x, p c = true) → (∀ c ∈ w.head?, p c = false) →
      (x ++ w).takeWhile p = x := by
    intro x w hx hw
    have hnil : w.takeWhile p = [] := by
      cases w with
      | nil => rfl
      | cons c w => exact List.takeWhile_cons_of_neg (Bool.eq_false_iff.1 (hw c rfl))
    rw [List.takeWhile_append_of_pos hx, hnil, List.append_nil]
  have heq : x = x' := by rw [← hrun hx hw, h, hrun hx' hw']
  subst heq
  exact ⟨rfl, List.append_cancel_left h⟩

/-! ### Bodies -/

/-- What a variable of a body looks like. -/
def VarText (v : Text) : Prop :=
  v ≠ [] ∧ (∀ c ∈ v.head?, isNumberChar c = false ∧ c ≠ ')') ∧
    ∀ c ∈ v, c ≠ '*' ∧ c ≠ '"' ∧ isWhiteSpace c = false

instance (v : Text) : Decidable (VarText v) :=
  decidable_of_iff (v ≠ [] ∧ v.head?.all (fun c => !isNumberChar c && c != ')') = true ∧
    v.all (fun c => c != '*' && (c != '"' && !isWhiteSpace c)) = true)
    (by simp [VarText, Option.all_eq_true, List.all_eq_true])

def termText (z : Text × Text) : Text := z.1 ++ '*' :: z.2

theorem terms_cancel (hzs : ∀ z ∈ zs, VarText z.1 ∧ NumberText z.2)
    (hzs' : ∀ z ∈ zs', VarText z.1 ∧ NumberText z.2) (hx : ∀ c ∈ x, isNumberChar c = true)
    (hx' : ∀ c ∈ x', isNumberChar c = true)
    (h : x ++ (zs.flatMap (fun z => '+' :: termText z) ++ ')' :: r) =
      x' ++ (zs'.flatMap (fun z => '+' :: termText z) ++ ')' :: r')) :
    x = x' ∧ zs = zs' ∧ r = r' := by
  have hclose : ∀ c ∈ (')' :: r).head?, isNumberChar c = false := by simp [isNumberChar]
  have hclose' : ∀ c ∈ (')' :: r').head?, isNumberChar c = false := by simp [isNumberChar]
  -- the sign belongs to the run as well, the variable after it does not
  have hvar : ∀ {z : Text × Text} {w : Text}, VarText z.1 →
      ∀ c ∈ (termText z ++ w).head?, isNumberChar c = false ∧ c ≠ ')' := by
    intro z w hz c hc
    obtain ⟨d, v, hv⟩ := List.exists_cons_of_ne_nil hz.1
    refine hz.2.1 c ?_
    rw [termText, hv] at hc
    rw [hv]
    exact hc
  have hsign : ∀ {x : Text}, (∀ c ∈ x, isNumberChar c = true) →
      ∀ c ∈ x ++ ['+'], isNumberChar c = true := fun hx =>
    List.forall_mem_append.2 ⟨hx, forall_mem_eq (by decide)⟩
  induction zs generalizing x x' zs' with
  | nil =>
    cases zs' with
    | nil =>
      obtain ⟨rfl, hr⟩ := run_cancel hx hx' hclose hclose' h
      exact ⟨rfl, rfl, (List.cons.inj hr).2⟩
    | cons z' zs' =>
      exfalso
      obtain ⟨hz', -⟩ := List.forall_mem_cons.1 hzs'
      have hcut : x ++ ')' :: r = (x' ++ ['+']) ++
          (termText z' ++ (zs'.flatMap (fun z => '+' :: termText z) ++ ')' :: r')) := by
        simpa using h
      obtain ⟨-, hrest⟩ := run_cancel hx (hsign hx') hclose (fun c hc => (hvar hz'.1 c hc).1) hcut
      exact (hvar hz'.1 ')' (by rw [← hrest]; rfl)).2 rfl
  | cons z zs ih =>
    obtain ⟨hz, hzs⟩ := List.forall_mem_cons.1 hzs
    have hcut : x ++ ((z :: zs).flatMap (fun z => '+' :: termText z) ++ ')' :: r) =
        (x ++ ['+']) ++ (termText z ++ (zs.flatMap (fun z => '+' :: termText z) ++ ')' :: r)) := by
      simp
    rw [hcut] at h
    cases zs' with
    | nil =>
      exfalso
      obtain ⟨-, hrest⟩ := run_cancel (hsign hx) hx' (fun c hc => (hvar hz.1 c hc).1) hclose' h
      exact (hvar hz.1 ')' (by rw [hrest]; rfl)).2 rfl
    | cons z' zs' =>
      obtain ⟨hz', hzs'⟩ := List.forall_mem_cons.1 hzs'
      have hcut' : x' ++ ((z' :: zs').flatMap (fun z => '+' :: termText z) ++ ')' :: r') =
          (x' ++ ['+']) ++
            (termText z' ++ (zs'.flatMap (fun z => '+' :: termText z) ++ ')' :: r')) := by
        simp
      rw [hcut'] at h
      obtain ⟨hxs, hrest⟩ := run_cancel (hsign hx) (hsign hx') (fun c hc => (hvar hz.1 c hc).1)
        (fun c hc => (hvar hz'.1 c hc).1) h
      have hstar : ∀ {v : Text}, VarText v → ∀ c ∈ v, (c != '*') = true := fun hv c hc =>
        bne_iff_ne.2 (hv.2.2 c hc).1
      rw [termText, termText, List.append_assoc, List.append_assoc] at hrest
      obtain ⟨hvars, hrest⟩ := run_cancel (p := (· != '*')) (hstar hz.1) (hstar hz'.1) (by simp)
        (by simp) hrest
      obtain ⟨hnumbers, hzs, hr⟩ := ih hzs hzs' hz.2.2 hz'.2.2 (List.cons.inj hrest).2
      exact ⟨List.append_cancel_right hxs, by rw [Prod.ext hvars hnumbers, hzs], hr⟩

theorem varText_cacheVar (cv : CacheVar) : VarText cv.text := by
  cases cv <;> decide

theorem Body.Valid.terms (hbody : body.Valid) :
    ∀ z ∈ body.terms, VarText z.1 ∧ NumberText z.2 := by
  have hp : VarText "p".toList := by decide
  have hc : VarText "c".toList := by decide
  refine List.forall_mem_cons.2 ⟨⟨hp, hbody.input⟩, List.forall_mem_cons.2
    ⟨⟨hc, hbody.output⟩, fun z hz => ?_⟩⟩
  obtain ⟨y, hy, rfl⟩ := List.mem_map.1 hz
  exact ⟨varText_cacheVar y.1, hbody.cache y hy⟩

theorem isWhiteSpace_of_isPlain {d : Char} (h : isPlain d = true) : isWhiteSpace d = false := by
  have hsmall : d.toNat < 0x80 := by
    have hletters : d.isAlphanum = ((decide ('A'.val ≤ d.val ∧ d.val ≤ 'Z'.val) ||
        (decide ('a'.val ≤ d.val) && decide (d.val ≤ 'z'.val))) ||
          (decide ('0'.val ≤ d.val) && decide (d.val ≤ '9'.val))) := rfl
    simp only [isPlain, hletters, Bool.or_eq_true, Bool.and_eq_true, decide_eq_true_eq,
      List.contains_iff_mem, List.mem_cons, List.not_mem_nil, or_false,
      UInt32.le_iff_toNat_le] at h
    change d.val.toNat < 0x80
    obtain ((⟨-, hle⟩ | ⟨-, hle⟩) | ⟨-, hle⟩) | rfl | rfl | rfl := h
    · exact hle.trans_lt (by decide)
    · exact hle.trans_lt (by decide)
    · exact hle.trans_lt (by decide)
    all_goals decide
  have hall : ∀ k < 0x80, isPlain (Char.ofNat k) = true → isWhiteSpace (Char.ofNat k) = false := by
    decide
  have hd := hall d.toNat hsmall
  rw [Char.ofNat_toNat] at hd
  exact hd h

theorem isPlain_of_isNumberChar {d : Char} (h : isNumberChar d = true) : isPlain d = true := by
  have hdigit : d.isDigit = true → d.isAlphanum = true := by simp +contextual [Char.isAlphanum]
  simp only [isNumberChar, isPlain, Bool.or_eq_true, List.contains_iff_mem, List.mem_cons,
    List.not_mem_nil, or_false] at h ⊢
  obtain h | rfl | rfl | rfl | rfl | rfl := h
  · exact .inl (hdigit h)
  all_goals decide

theorem squash_of_plain (h : ∀ d ∈ s, isPlain d = true) : squash s = s :=
  squash_of_solid fun d hd => isWhiteSpace_of_isPlain (h d hd)

theorem compact_termTokens {z : Text × Text} (hz : VarText z.1 ∧ NumberText z.2) :
    compact (termTokens z) = termText z := by
  have hvar : squash z.1 = z.1 := squash_of_solid fun d hd => (hz.1.2.2 d hd).2.2
  have hnumber : squash z.2 = z.2 := squash_of_plain fun d hd =>
    isPlain_of_isNumberChar (hz.2.2 d hd)
  have hstar : squash ['*'] = ['*'] := by decide
  simp [termTokens, termText, hvar, hnumber, hstar]

theorem compact_summands (hzs : ∀ z ∈ zs, VarText z.1 ∧ NumberText z.2) :
    compact ((zs.map termTokens).flatMap ("+".toList :: ·)) =
      zs.flatMap fun z => '+' :: termText z := by
  have hplus : squash "+".toList = ['+'] := by decide
  induction zs with
  | nil => rfl
  | cons z zs ih =>
    obtain ⟨hz, hzs⟩ := List.forall_mem_cons.1 hzs
    rw [List.map_cons, List.flatMap_cons, compact_append, ih hzs, compact_cons,
      compact_termTokens hz, hplus]
    rfl

/-- The summands of a body but the first. -/
def Body.rest (body : Body) : List (Text × Text) :=
  ("c".toList, body.output) :: body.cache.map fun z => (z.1.text, z.2)

theorem compact_bodyTokens (hbody : body.Valid) :
    compact (bodyTokens body) =
      "p*".toList ++ (body.input ++ body.rest.flatMap fun z => '+' :: termText z) := by
  obtain ⟨hz, hzs⟩ := List.forall_mem_cons.1 hbody.terms
  rw [bodyTokens, Body.terms, List.map_cons, joined_cons, compact_append, compact_summands hzs,
    compact_termTokens hz, termText]
  rfl

theorem cacheVar_text_injective {cv cv' : CacheVar} (h : cv.text = cv'.text) : cv = cv' := by
  revert h
  cases cv <;> cases cv' <;> decide

/-- **Bodies are told apart** by their texts without white space. -/
theorem body_cancel (hbody : body.Valid) (hbody' : body'.Valid)
    (h : compact (bodyTokens body) ++ ')' :: r = compact (bodyTokens body') ++ ')' :: r') :
    body = body' ∧ r = r' := by
  obtain ⟨hz, hzs⟩ := List.forall_mem_cons.1 hbody.terms
  obtain ⟨hz', hzs'⟩ := List.forall_mem_cons.1 hbody'.terms
  rw [compact_bodyTokens hbody, compact_bodyTokens hbody', List.append_assoc, List.append_assoc,
    List.append_assoc, List.append_assoc] at h
  obtain ⟨hinput, hrest, hr⟩ :=
    terms_cancel hzs hzs' hz.2.2 hz'.2.2 (List.append_cancel_left h)
  obtain ⟨houtput, hcache⟩ := List.cons.inj hrest
  have hinj : Function.Injective fun z : CacheVar × Text => (z.1.text, z.2) := fun z z' h =>
    Prod.ext (cacheVar_text_injective (Prod.mk.inj h).1) (Prod.mk.inj h).2
  obtain ⟨x, y, zs⟩ := body
  obtain ⟨x', y', zs'⟩ := body'
  obtain rfl : x = x' := hinput
  obtain rfl : y = y' := (Prod.mk.inj houtput).2
  obtain rfl : zs = zs' := List.map_injective_iff.2 hinj hcache
  exact ⟨rfl, hr⟩

/-! ### Conditions -/

def isAngle (c : Char) : Bool := c == '<' || c == '>'

def conditionText (c : ConditionVar × Op × Text) : Text := c.1.text ++ (c.2.1.text ++ c.2.2)

/-- A variable and its comparison can be taken off, and text before them with no comparison. -/
theorem comparison_cancel {u u' : Text} {v v' : ConditionVar} {op op' : Op}
    (hu : ∀ d ∈ u, isAngle d = false) (hu' : ∀ d ∈ u', isAngle d = false)
    (hw : ∀ d ∈ w.head?, isAngle d = false ∧ d ≠ '=')
    (hw' : ∀ d ∈ w'.head?, isAngle d = false ∧ d ≠ '=')
    (h : u ++ (v.text ++ (op.text ++ w)) = u' ++ (v'.text ++ (op'.text ++ w'))) :
    u = u' ∧ v = v' ∧ op = op' ∧ w = w' := by
  have hvar : ∀ v : ConditionVar, ∀ d ∈ v.text, isAngle d = false := by
    intro v
    cases v <;> exact forall_mem_eq (by decide)
  have hop : ∀ (op : Op) (w : Text), ∀ d ∈ (op.text ++ w).head?, (!isAngle d) = false := by
    intro op w d hd
    obtain ⟨e, s, htext, he⟩ : ∃ e s, op.text = e :: s ∧ isAngle e = true := by
      cases op <;> exact ⟨_, _, rfl, by decide⟩
    rw [htext] at hd
    obtain rfl := Option.some.inj hd
    rw [he]
    rfl
  have hopAll : ∀ op : Op, ∀ d ∈ op.text, (isAngle d || d == '=') = true := by
    intro op
    cases op <;> exact forall_mem_eq (by decide)
  have hrest : ∀ {w : Text}, (∀ d ∈ w.head?, isAngle d = false ∧ d ≠ '=') →
      ∀ d ∈ w.head?, (isAngle d || d == '=') = false := by
    intro w hw d hd
    simp [hw d hd]
  have hall : ∀ {u : Text} {v : ConditionVar}, (∀ d ∈ u, isAngle d = false) →
      ∀ d ∈ u ++ v.text, (!isAngle d) = true := by
    intro u v hu d hd
    obtain hd | hd := List.mem_append.1 hd
    · rw [hu d hd]
      rfl
    · rw [hvar v d hd]
      rfl
  rw [← List.append_assoc, ← List.append_assoc u'] at h
  obtain ⟨hvars, hops⟩ := run_cancel (hall hu) (hall hu') (hop op w) (hop op' w') h
  obtain ⟨hops, hw⟩ := run_cancel (hopAll op) (hopAll op') (hrest hw) (hrest hw') hops
  have hopeq : op = op' := by
    cases op <;> cases op' <;> first | rfl | exact absurd hops (by decide)
  have hne : ∀ v : ConditionVar, v.text ≠ [] := by
    intro v
    cases v <;> decide
  have hlast : v.text.getLast? = v'.text.getLast? := by
    have h := congrArg List.getLast? hvars
    rwa [List.getLast?_append_of_ne_nil _ (hne v), List.getLast?_append_of_ne_nil _ (hne v')] at h
  have hveq : v = v' := by
    cases v <;> cases v' <;> first | rfl | exact absurd hlast (by decide)
  subst hveq
  exact ⟨List.append_cancel_right hvars, rfl, hopeq, hw⟩

theorem not_isPlain_of_head {d : Char}
    (h : d ∈ (cs.flatMap (fun c => "&&".toList ++ conditionText c) ++ '?' :: r).head?) :
    d = '&' ∨ d = '?' := by
  cases cs with
  | nil => exact .inr (Option.some.inj h).symm
  | cons c cs => exact .inl (Option.some.inj h).symm

theorem head_number (hn : ∀ d ∈ n, isPlain d = true) {d : Char}
    (h : d ∈ (n ++ (cs.flatMap (fun c => "&&".toList ++ conditionText c) ++ '?' :: r)).head?) :
    isAngle d = false ∧ d ≠ '=' := by
  cases n with
  | nil => obtain rfl | rfl := not_isPlain_of_head h <;> decide
  | cons e n =>
    obtain rfl := Option.some.inj h
    have he := hn e List.mem_cons_self
    refine ⟨Bool.eq_false_iff.2 fun hangle => ?_, ?_⟩
    · rw [isAngle, Bool.or_eq_true, beq_iff_eq, beq_iff_eq] at hangle
      obtain rfl | rfl := hangle <;> exact absurd he (by decide)
    · rintro rfl
      exact absurd he (by decide)

theorem conditions_cancel (hcs : ∀ c ∈ cs, ∀ d ∈ c.2.2, isPlain d = true)
    (hcs' : ∀ c ∈ cs', ∀ d ∈ c.2.2, isPlain d = true) (hn : ∀ d ∈ n, isPlain d = true)
    (hn' : ∀ d ∈ n', isPlain d = true)
    (h : n ++ (cs.flatMap (fun c => "&&".toList ++ conditionText c) ++ '?' :: r) =
      n' ++ (cs'.flatMap (fun c => "&&".toList ++ conditionText c) ++ '?' :: r')) :
    n = n' ∧ cs = cs' := by
  have hstop : ∀ {cs : List (ConditionVar × Op × Text)} {r : Text},
      ∀ d ∈ (cs.flatMap (fun c => "&&".toList ++ conditionText c) ++ '?' :: r).head?,
        isPlain d = false := by
    intro cs r d hd
    obtain rfl | rfl := not_isPlain_of_head hd <;> decide
  induction cs generalizing n n' cs' with
  | nil =>
    obtain ⟨rfl, hrest⟩ := run_cancel hn hn' hstop hstop h
    cases cs' with
    | nil => exact ⟨rfl, rfl⟩
    | cons c' cs' => exact absurd (List.cons.inj hrest).1 (by decide)
  | cons c cs ih =>
    obtain ⟨rfl, hrest⟩ := run_cancel hn hn' hstop hstop h
    cases cs' with
    | nil => exact absurd (List.cons.inj hrest).1 (by decide)
    | cons c' cs' =>
      obtain ⟨hc, hcs⟩ := List.forall_mem_cons.1 hcs
      obtain ⟨hc', hcs'⟩ := List.forall_mem_cons.1 hcs'
      simp only [List.flatMap_cons, conditionText, List.append_assoc] at hrest
      have hnil : ∀ d ∈ ([] : Text), isAngle d = false := fun _ h => absurd h List.not_mem_nil
      obtain ⟨-, hv, hop, hrest⟩ := comparison_cancel hnil hnil
        (fun _ hd => head_number hc hd) (fun _ hd => head_number hc' hd)
        (List.append_cancel_left hrest)
      obtain ⟨hnumber, rfl⟩ := ih hcs hcs' hc hc' hrest
      exact ⟨rfl, by rw [Prod.ext hv (Prod.ext hop hnumber)]⟩

theorem solid_var (v : ConditionVar) : ∀ d ∈ v.text, isWhiteSpace d = false := by
  cases v <;> exact forall_mem_eq (by decide)

theorem solid_op (op : Op) : ∀ d ∈ op.text, isWhiteSpace d = false := by
  cases op <;> exact forall_mem_eq (by decide)

theorem compact_conditionTokens (hc : ∀ d ∈ c.2.2, isPlain d = true) :
    compact (conditionTokens c) = conditionText c := by
  simp [conditionTokens, conditionText, squash_of_solid (solid_var c.1),
    squash_of_solid (solid_op c.2.1), squash_of_plain hc]

theorem compact_andConditions (hcs : ∀ c ∈ cs, ∀ d ∈ c.2.2, isPlain d = true) :
    compact ((cs.map conditionTokens).flatMap ("&&".toList :: ·)) =
      cs.flatMap fun c => "&&".toList ++ conditionText c := by
  induction cs with
  | nil => rfl
  | cons c cs ih =>
    obtain ⟨hc, hcs⟩ := List.forall_mem_cons.1 hcs
    rw [List.map_cons, List.flatMap_cons, compact_append, ih hcs, compact_cons,
      compact_conditionTokens hc]
    rfl

theorem compact_guardTokens (hcs : ∀ d ∈ c :: cs, ∀ e ∈ d.2.2, isPlain e = true) :
    compact (guardTokens (c :: cs)) =
      conditionText c ++ (cs.flatMap (fun c => "&&".toList ++ conditionText c) ++ "?".toList) := by
  obtain ⟨hc, hcs⟩ := List.forall_mem_cons.1 hcs
  have hsign : squash "?".toList = "?".toList := by decide
  rw [guardTokens, if_neg (List.cons_ne_nil _ _), List.map_cons, joined_cons, compact_append,
    compact_append, compact_conditionTokens hc, compact_andConditions hcs, compact_cons,
    compact_nil, List.append_nil, hsign, List.append_assoc]

theorem countP_conditionText (hc : ∀ d ∈ c.2.2, isPlain d = true) :
    (conditionText c).countP isAngle = 1 := by
  have hvar : c.1.text.countP isAngle = 0 := by cases c.1 <;> decide
  have hop : c.2.1.text.countP isAngle = 1 := by cases c.2.1 <;> decide
  have hnumber : c.2.2.countP isAngle = 0 := by
    refine List.countP_eq_zero.2 fun d hd hangle => ?_
    rw [isAngle, Bool.or_eq_true, beq_iff_eq, beq_iff_eq] at hangle
    obtain rfl | rfl := hangle <;> exact absurd (hc _ hd) (by decide)
  rw [conditionText, List.countP_append, List.countP_append, hvar, hop, hnumber]

theorem countP_andConditions (hcs : ∀ c ∈ cs, ∀ d ∈ c.2.2, isPlain d = true) :
    (cs.flatMap fun c => "&&".toList ++ conditionText c).countP isAngle = cs.length := by
  have hand : "&&".toList.countP isAngle = 0 := by decide
  induction cs with
  | nil => rfl
  | cons c cs ih =>
    obtain ⟨hc, hcs⟩ := List.forall_mem_cons.1 hcs
    rw [List.flatMap_cons, List.countP_append, List.countP_append, ih hcs,
      countP_conditionText hc, hand, List.length_cons]
    omega

theorem countP_guardTokens (hcs : ∀ c ∈ cs, ∀ d ∈ c.2.2, isPlain d = true) :
    (compact (guardTokens cs)).countP isAngle = cs.length := by
  have hsign : "?".toList.countP isAngle = 0 := by decide
  cases cs with
  | nil => rfl
  | cons c cs =>
    rw [compact_guardTokens hcs]
    obtain ⟨hc, hcs⟩ := List.forall_mem_cons.1 hcs
    rw [List.countP_append, List.countP_append, countP_conditionText hc, countP_andConditions hcs,
      hsign, List.length_cons]
    omega

/-- **Conditions are told apart** by their texts without white space, if there are enough of
them, and text before them cannot be one. -/
theorem guard_cancel {lead : Text} (hcs : ∀ c ∈ cs, ∀ d ∈ c.2.2, isPlain d = true)
    (hcs' : ∀ c ∈ cs', ∀ d ∈ c.2.2, isPlain d = true) (hlead : ∀ d ∈ lead, isAngle d = false)
    (hlen : cs'.length ≤ cs.length) (hne : cs ≠ [])
    (h : u ++ compact (guardTokens cs) = lead ++ compact (guardTokens cs')) :
    u = lead ∧ cs = cs' := by
  have hcount := congrArg (List.countP isAngle) h
  rw [List.countP_append, List.countP_append, countP_guardTokens hcs, countP_guardTokens hcs',
    List.countP_eq_zero.2 fun d hd => Bool.eq_false_iff.1 (hlead d hd)] at hcount
  have hu : ∀ d ∈ u, isAngle d = false := fun d hd =>
    Bool.eq_false_iff.2 (List.countP_eq_zero.1 (by omega) d hd)
  obtain ⟨c, cs, rfl⟩ := List.exists_cons_of_ne_nil hne
  cases cs' with
  | nil => exact absurd hcount (by rw [List.length_cons, List.length_nil]; omega)
  | cons c' cs' =>
    rw [compact_guardTokens hcs, compact_guardTokens hcs', conditionText, conditionText,
      List.append_assoc, List.append_assoc, List.append_assoc, List.append_assoc] at h
    obtain ⟨hc, hcs⟩ := List.forall_mem_cons.1 hcs
    obtain ⟨hc', hcs'⟩ := List.forall_mem_cons.1 hcs'
    obtain ⟨rfl, hv, hop, hrest⟩ := comparison_cancel hu hlead
      (fun _ hd => head_number (r := []) hc hd) (fun _ hd => head_number (r := []) hc' hd) h
    obtain ⟨hnumber, rfl⟩ := conditions_cancel hcs hcs' hc hc' hrest
    exact ⟨rfl, by rw [Prod.ext hv (Prod.ext hop hnumber)]⟩

/-! ### Parts -/

theorem quote_not_mem_guard (hcs : ∀ c ∈ cs, ∀ d ∈ c.2.2, isPlain d = true) :
    '"' ∉ compact (guardTokens cs) := by
  have hcondition : ∀ {c : ConditionVar × Op × Text}, (∀ d ∈ c.2.2, isPlain d = true) →
      '"' ∉ conditionText c := by
    intro c hc hmem
    obtain h | h := List.mem_append.1 hmem
    · cases hv : c.1 <;> exact absurd (hv ▸ h) (by decide)
    obtain h | h := List.mem_append.1 h
    · cases hop : c.2.1 <;> exact absurd (hop ▸ h) (by decide)
    · exact absurd (hc _ h) (by decide)
  cases cs with
  | nil => exact List.not_mem_nil
  | cons c cs =>
    rw [compact_guardTokens hcs]
    obtain ⟨hc, hcs⟩ := List.forall_mem_cons.1 hcs
    rw [List.mem_append, List.mem_append, List.mem_flatMap]
    rintro (h | ⟨d, hd, h⟩ | h)
    · exact hcondition hc h
    · obtain h | h := List.mem_append.1 h
      · exact absurd h (by decide)
      · exact hcondition (hcs d hd) h
    · exact absurd h (by decide)

theorem quote_not_mem_body (hbody : body.Valid) : '"' ∉ compact (bodyTokens body) := by
  have hnumber : ∀ {x : Text}, NumberText x → '"' ∉ x := fun hx hmem =>
    absurd (hx.2 _ hmem) (by decide)
  obtain ⟨-, hzs⟩ := List.forall_mem_cons.1 hbody.terms
  rw [compact_bodyTokens hbody, List.mem_append, List.mem_append, List.mem_flatMap]
  rintro (h | h | ⟨z, hz, h⟩)
  · exact absurd h (by decide)
  · exact hnumber hbody.input h
  · obtain h | h := List.mem_cons.1 h
    · exact absurd h (by decide)
    obtain h | h := List.mem_append.1 h
    · exact ((hzs z hz).1.2.2 _ h).2.1 rfl
    obtain h | h := List.mem_cons.1 h
    · exact absurd h (by decide)
    · exact hnumber (hzs z hz).2 h

theorem compact_tierTokens (label : Text) (body : Body) :
    compact (tierTokens label body) = "tier(".toList ++ '"' :: (squash label ++
      '"' :: ',' :: (compact (bodyTokens body) ++ ")".toList)) := by
  have htier : squash "tier".toList = "tier".toList := by decide
  have hopen : squash "(".toList = "(".toList := by decide
  have hclose : squash ")".toList = ")".toList := by decide
  have hcomma : squash ",".toList = ",".toList := by decide
  have hquoted : squash ('"' :: (label ++ ['"'])) = '"' :: (squash label ++ ['"']) := by
    rw [← List.singleton_append, squash_append, squash_append]
    rfl
  simp only [tierTokens, compact_cons, compact_append, compact_nil, htier, hopen, hclose, hcomma,
    hquoted]
  simp

theorem quote_not_mem_squash {label : Text} (h : '"' ∉ label) : '"' ∉ squash label :=
  fun hmem => h (List.mem_of_mem_filter hmem)

/-- **Two calls of `tier`** with no quote before them begin at the same place, and are the same but
for white space in the labels. -/
theorem tier_cancel {g g' label label' : Text} (hg : '"' ∉ g) (hg' : '"' ∉ g')
    (hlabel : '"' ∉ label) (hlabel' : '"' ∉ label') (hbody : body.Valid) (hbody' : body'.Valid)
    (h : g ++ (compact (tierTokens label body) ++ r) =
      g' ++ (compact (tierTokens label' body') ++ r')) :
    g = g' ∧ squash label = squash label' ∧ body = body' ∧ r = r' := by
  have hno : ∀ {s : Text}, '"' ∉ s → ∀ d ∈ s, (d != '"') = true :=
    fun hs d hd => bne_iff_ne.2 fun hd' => hs (hd' ▸ hd)
  have htier : ∀ {s : Text}, '"' ∉ s → '"' ∉ s ++ "tier(".toList := fun hs hmem =>
    (List.mem_append.1 hmem).elim hs (by decide)
  have hquote : ∀ s : Text, ∀ d ∈ ('"' :: s).head?, (d != '"') = false := by
    intro s d hd
    obtain rfl := Option.some.inj hd
    rfl
  rw [compact_tierTokens, compact_tierTokens] at h
  simp only [List.append_assoc, List.cons_append] at h
  rw [← List.append_assoc, ← List.append_assoc g'] at h
  obtain ⟨hbefore, hafter⟩ :=
    run_cancel (hno (htier hg)) (hno (htier hg')) (hquote _) (hquote _) h
  obtain ⟨hlabels, hafter⟩ := run_cancel (hno (quote_not_mem_squash hlabel))
    (hno (quote_not_mem_squash hlabel')) (hquote _) (hquote _) (List.cons.inj hafter).2
  obtain ⟨hbodies, hr⟩ := body_cancel hbody hbody' (List.cons.inj (List.cons.inj hafter).2).2
  exact ⟨List.append_cancel_right hbefore, hlabels, hbodies, hr⟩

theorem count_part (hcs : ∀ c ∈ cs, ∀ d ∈ c.2.2, isPlain d = true) {label : Text}
    (hlabel : '"' ∉ label) (hbody : body.Valid) :
    (compact (guardTokens cs ++ tierTokens label body)).count '"' = 2 := by
  have htier : "tier(".toList.count '"' = 0 := by decide
  have hclose : ")".toList.count '"' = 0 := by decide
  have hcomma : (',' == '"') = false := by decide
  rw [compact_append, compact_tierTokens]
  simp only [List.count_append, List.count_cons, htier, hclose, hcomma, beq_self_eq_true, if_true,
    List.count_eq_zero.2 (quote_not_mem_guard hcs),
    List.count_eq_zero.2 (quote_not_mem_squash hlabel),
    List.count_eq_zero.2 (quote_not_mem_body hbody)]
  simp

theorem count_squash {d : Char} (hd : isWhiteSpace d = false) (s : Text) :
    (squash s).count d = s.count d :=
  List.count_filter (by simp [hd])

theorem count_conditionText (hc : ∀ d ∈ c.2.2, isPlain d = true) :
    (conditionText c).count '&' = 0 := by
  have hvar : c.1.text.count '&' = 0 := by cases c.1 <;> decide
  have hop : c.2.1.text.count '&' = 0 := by cases c.2.1 <;> decide
  have hnumber : c.2.2.count '&' = 0 :=
    List.count_eq_zero.2 fun hmem => absurd (hc _ hmem) (by decide)
  rw [conditionText, List.count_append, List.count_append, hvar, hop, hnumber]

theorem count_andConditions (hcs : ∀ c ∈ cs, ∀ d ∈ c.2.2, isPlain d = true) :
    (cs.flatMap fun c => "&&".toList ++ conditionText c).count '&' = 2 * cs.length := by
  have hand : "&&".toList.count '&' = 2 := by decide
  induction cs with
  | nil => rfl
  | cons c cs ih =>
    obtain ⟨hc, hcs⟩ := List.forall_mem_cons.1 hcs
    rw [List.flatMap_cons, List.count_append, List.count_append, ih hcs, count_conditionText hc,
      hand, List.length_cons]
    omega

theorem count_captured (hne : cs ≠ []) (hcs : ∀ c ∈ cs, ∀ d ∈ c.2.2, isPlain d = true)
    (h : Spaced isWhiteSpace (joined "&&".toList (cs.map conditionTokens)) x) :
    x.count '&' + 2 = 2 * cs.length := by
  obtain ⟨c, cs, rfl⟩ := List.exists_cons_of_ne_nil hne
  obtain ⟨hc, hcs⟩ := List.forall_mem_cons.1 hcs
  rw [← count_squash (by decide) x, h.squash, List.map_cons, joined_cons, compact_append,
    compact_conditionTokens hc, compact_andConditions hcs, List.count_append,
    count_conditionText hc, count_andConditions hcs, List.length_cons]
  omega

/-- A match of `tierRe` and the part that is written for it. -/
structure Reads (found : Option Text × Text × Body) (part : Part) : Prop where
  valid : part.Valid
  label : part.label = found.2.1 ∨ found.2.1 = [] ∧ squash part.label ≠ []
  noConditions : found.1 = none → part.conditions = []
  conditions : ∀ x, found.1 = some x → 2 * part.conditions.length ≤ x.count '&' + 2

/-- **One match**: if the text up to its end is what is written for it but for white space, then
it has the same tokens. -/
theorem step_spaced (h : (found, r) ∈ tierRe t) (hreads : Reads found part)
    (hlead : lead = [] ∨ lead = [":".toList])
    (hquotes : (compact more).count '"' ≤ (squash r).count '"')
    (heq : squash (u ++ t) = compact (lead ++ (part.tokens ++ more))) :
    squash r = compact more ∧
      ∃ w, u ++ t = w ++ r ∧ Spaced isWhiteSpace (lead ++ part.tokens) w := by
  obtain ⟨m, cs, rfl, hm, hfound, hcs, hlabel, hbody⟩ := mem_tierRe h
  have hpart := hreads.valid
  have hleadQuote : '"' ∉ compact lead := by obtain rfl | rfl := hlead <;> decide
  have hleadAngle : ∀ d ∈ compact lead, isAngle d = false := by
    obtain rfl | rfl := hlead <;> exact forall_mem_eq (by decide)
  -- there is no quote before the match, since all of them are needed
  rw [squash_append, squash_append, hm.squash, Part.tokens] at heq
  have hcount := congrArg (List.count '"') heq
  rw [compact_append lead, compact_append (_ ++ _) more, List.count_append, List.count_append,
    List.count_append, List.count_append, count_part hcs hlabel hbody,
    count_part hpart.conditions hpart.label hpart.body, List.count_eq_zero.2 hleadQuote] at hcount
  have hu : '"' ∉ squash u := List.count_eq_zero.1 (by omega)
  -- so the quotes stand at the same places
  have hfront : '"' ∉ squash u ++ compact (guardTokens cs) := fun hmem =>
    (List.mem_append.1 hmem).elim hu (quote_not_mem_guard hcs)
  have hfront' : '"' ∉ compact lead ++ compact (guardTokens part.conditions) := fun hmem =>
    (List.mem_append.1 hmem).elim hleadQuote (quote_not_mem_guard hpart.conditions)
  simp only [compact_append, List.append_assoc] at heq
  rw [← List.append_assoc, ← List.append_assoc (compact lead)] at heq
  obtain ⟨hguard, hlabelEq, hbodies, hr⟩ :=
    tier_cancel hfront hfront' hlabel hpart.label hbody hpart.body heq
  -- the labels are the same, for an empty one is replaced by another text
  have hlabels : found.2.1 = part.label := by
    obtain hsame | ⟨hempty, hne⟩ := hreads.label
    · exact hsame.symm
    · rw [hempty] at hlabelEq
      exact absurd hlabelEq.symm hne
  have hconditions : squash u = compact lead ∧ cs = part.conditions := by
    obtain ⟨hnone, rfl⟩ | ⟨x, hsome, hne, hx⟩ := hfound
    · rw [hreads.noConditions hnone] at hguard ⊢
      exact ⟨List.append_cancel_right hguard, rfl⟩
    · refine guard_cancel hcs hpart.conditions hleadAngle ?_ hne hguard
      have hbound := hreads.conditions x hsome
      have hcaptured := count_captured hne hcs hx
      omega
  obtain ⟨hlead', rfl⟩ := hconditions
  refine ⟨hr, u ++ m, by rw [List.append_assoc], ?_⟩
  have hspaced : Spaced isWhiteSpace lead u := by
    have hu' := spaced_of_squash u
    rw [hlead'] at hu'
    obtain rfl | rfl := hlead <;> exact hu'
  rw [Part.tokens, tierTokens, ← hlabels, ← hbodies]
  exact hspaced.append hm

/-! ### Runs -/

variable {founds : List (Text × (Option Text × Text × Body) × Text)} {parts : List Part}
  {tail : List Text}

theorem count_runs (h : Runs tierRe s founds) :
    2 * founds.length ≤ (squash s).count '"' := by
  induction h with
  | nil s => exact Nat.zero_le _
  | @cons u a r t founds hfound _ ih =>
    obtain ⟨m, cs, rfl, hm, -, hcs, hlabel, hbody⟩ := mem_tierRe hfound
    rw [squash_append, squash_append, hm.squash, List.count_append, List.count_append,
      count_part hcs hlabel hbody, List.length_cons]
    omega

/-- Parts that are written one after the other, and what comes last. -/
def followed (parts : List Part) (tail : List Text) : List Text :=
  (parts.flatMap fun part => ":".toList :: part.tokens) ++ tail

/-- The tokens of an expression. -/
def exprTokens (parts : List Part) (tail : List Text) : List Text :=
  joined ":".toList (parts.map Part.tokens) ++ tail

theorem exprTokens_cons : exprTokens (part :: parts) tail = part.tokens ++ followed parts tail := by
  rw [exprTokens, List.map_cons, joined_cons, List.flatMap_map, List.append_assoc, followed]

theorem followed_cons :
    followed (part :: parts) tail = [":".toList] ++ (part.tokens ++ followed parts tail) := by
  rw [followed, List.flatMap_cons, List.append_assoc]
  rfl

theorem count_followed (hparts : ∀ part ∈ parts, part.Valid) (htail : '"' ∉ compact tail) :
    (compact (followed parts tail)).count '"' = 2 * parts.length := by
  induction parts with
  | nil => exact List.count_eq_zero.2 htail
  | cons part parts ih =>
    obtain ⟨hpart, hparts⟩ := List.forall_mem_cons.1 hparts
    have hcolon : (compact [":".toList]).count '"' = 0 := by decide
    rw [followed_cons, compact_append, compact_append, List.count_append, List.count_append,
      ih hparts, Part.tokens, count_part hpart.conditions hpart.label hpart.body, hcolon,
      List.length_cons]
    omega

theorem Reads.forall_valid
    (h : List.Forall₂ (fun found part => Reads found.2.1 part) founds parts) :
    ∀ part ∈ parts, part.Valid := by
  induction h with
  | nil => exact fun _ h => absurd h List.not_mem_nil
  | cons hreads _ ih => exact List.forall_mem_cons.2 ⟨hreads.valid, ih⟩

theorem spaced_tail (htail : tail = (compact tail).map fun c => [c])
    (heq : squash s = compact tail) : Spaced isWhiteSpace tail s := by
  have hs := spaced_of_squash s
  rwa [heq, ← htail] at hs

/-- **All the matches after the first.** -/
theorem spaced_of_following (h : Runs tierRe s founds)
    (hreads : List.Forall₂ (fun found part => Reads found.2.1 part) founds parts)
    (htail : tail = (compact tail).map fun c => [c]) (hquote : '"' ∉ compact tail)
    (heq : squash s = compact (followed parts tail)) :
    Spaced isWhiteSpace (followed parts tail) s := by
  induction h generalizing parts with
  | nil s =>
    cases hreads with
    | nil => exact spaced_tail htail heq
  | @cons u a r t founds hfound hruns ih =>
    cases hreads with
    | @cons _ part _ parts hread hreads =>
      have hquotes : (compact (followed parts tail)).count '"' ≤ (squash r).count '"' := by
        rw [count_followed (Reads.forall_valid hreads) hquote, ← hreads.length_eq]
        exact count_runs hruns
      rw [followed_cons] at heq ⊢
      obtain ⟨hr, w, hw, hspaced⟩ := step_spaced hfound hread (.inr rfl) hquotes heq
      rw [hw, ← List.append_assoc]
      exact hspaced.append (ih hreads hr)

/-- **All the matches** of an expression: where each of them reads as one part, and the text without
its white space is that of the parts, the text is made of their tokens. -/
theorem spaced_of_runs (h : Runs tierRe s founds) (hne : founds ≠ [])
    (hreads : List.Forall₂ (fun found part => Reads found.2.1 part) founds parts)
    (htail : tail = (compact tail).map fun c => [c]) (hquote : '"' ∉ compact tail)
    (heq : squash s = compact (exprTokens parts tail)) :
    Spaced isWhiteSpace (exprTokens parts tail) s := by
  cases h with
  | nil s => exact absurd rfl hne
  | @cons u a r t founds hfound hruns =>
    cases hreads with
    | @cons _ part _ parts hread hreads =>
      have hquotes : (compact (followed parts tail)).count '"' ≤ (squash r).count '"' := by
        rw [count_followed (Reads.forall_valid hreads) hquote, ← hreads.length_eq]
        exact count_runs hruns
      rw [exprTokens_cons] at heq ⊢
      have hlead : ([] : List Text) = [] ∨ ([] : List Text) = [":".toList] := .inl rfl
      obtain ⟨hr, w, hw, hspaced⟩ := step_spaced hfound hread hlead hquotes heq
      rw [hw]
      exact hspaced.append (spaced_of_following hruns hreads htail hquote hr)

end Align

end NewApiPool.TierEditor
