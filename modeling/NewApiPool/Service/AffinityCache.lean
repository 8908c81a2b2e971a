import NewApiPool.Cachex.Backends
import NewApiPool.Service.ChannelAffinity

/-!
# Forgetting the entries of a rule

The entries of a rule that includes its name begin with it, and can be deleted together. Then all
entries of this rule are gone, and those of the other rules are as before
(`get_clear`), on both backends: the names may have a colon in them as little as a character of
patterns.
-/

namespace NewApiPool.ChannelAffinity

open Cachex EventSystem GoText KeyStore

/-- `ClearChannelAffinityCacheByRuleName`: the number of the entries that were deleted. -/
def clearChannelAffinityCacheByRuleName (server : Server) (rules : List ChannelAffinityRule)
    (ruleName : Text) (cache : HybridCache ℤ) :
    Except String (HybridCache ℤ × ℕ) :=
  let ruleName := trimText ruleName
  if ruleName = [] then .error "rule_name 不能为空"
  else
    match rules.find? fun r => trimText r.name = ruleName with
    | none => .error "未知规则名称"
    | some matchedRule =>
      if !matchedRule.includeRuleName then
        .error "该规则未启用 include_rule_name，无法按规则清空缓存"
      else .ok (cache.deleteByPrefix server channelAffinityCacheNamespace ruleName)

/-- A name that nothing is trimmed from and that has no colon, that means no more than itself in a
pattern, and that does not make a key begin like the namespace. -/
structure CleanName (name : Text) : Prop where
  ne_nil : name ≠ []
  trimmed : trimText name = name
  no_colon : ':' ∉ name
  plain : Plain name
  not_namespace : ¬name ++ [':'] <+: namespaceColon

variable {rule rule' : ChannelAffinityRule} {r : Request} {name name' rest : Text}

/-! ### Keys and prefixes -/

theorem prefix_colon_iff (hname : ':' ∉ name) (hname' : ':' ∉ name') :
    name ++ [':'] <+: name' ++ ':' :: rest ↔ name = name' := by
  constructor
  · intro h
    induction name generalizing name' with
    | nil =>
      cases name' with
      | nil => rfl
      | cons c name' =>
        obtain rfl := (List.cons_prefix_cons.mp h).1
        exact absurd List.mem_cons_self hname'
    | cons c name ih =>
      rw [List.mem_cons, not_or] at hname
      cases name' with
      | nil => exact absurd (List.cons_prefix_cons.mp h).1.symm hname.1
      | cons c' name' =>
        rw [List.mem_cons, not_or] at hname'
        obtain ⟨rfl, htail⟩ := List.cons_prefix_cons.mp h
        rw [ih hname.2 hname'.2 htail]
  · rintro rfl
    exact ⟨rest, by rw [List.append_assoc]; rfl⟩

/-- A key that begins with a clean name begins plainly. -/
theorem CleanName.beginsPlainly (h : CleanName name) {rest : Text}
    (hrest : ∀ c, rest.head? = some c → c = ':') : BeginsPlainly (name ++ rest) := by
  refine ⟨fun c hc => ?_, fun hstarts => ?_⟩
  · rw [List.head?_append_of_ne_nil _ h.ne_nil] at hc
    refine ⟨head_of_trimText h.trimmed hc, ?_⟩
    rintro rfl
    exact h.no_colon (List.mem_of_head? hc)
  · have hshort : ¬namespaceColon <+: name := fun hname =>
      h.no_colon (hname.subset (List.mem_append_right _ (List.mem_singleton_self ':')))
    cases rest with
    | nil => exact hshort (List.append_nil name ▸ hstarts)
    | cons c rest =>
      obtain rfl := hrest c rfl
      have hkey : name ++ [':'] <+: name ++ ':' :: rest := ⟨rest, by rw [List.append_assoc]; rfl⟩
      rcases List.prefix_or_prefix_of_prefix hstarts hkey with hlong | hlong
      · rcases List.prefix_concat_iff.mp hlong with heq | hname
        · exact h.not_namespace (heq ▸ List.prefix_rfl)
        · exact hshort hname
      · exact h.not_namespace hlong

theorem CleanName.exists_concat (h : CleanName name) :
    ∃ s c, name = s ++ [c] ∧ isSpace c = false ∧ c ≠ ':' := by
  obtain ⟨s, c, rfl, hc⟩ := exists_concat_of_trimText h.trimmed h.ne_nil
  refine ⟨s, c, rfl, hc, ?_⟩
  rintro rfl
  exact h.no_colon (List.mem_append_right s (List.mem_singleton_self _))

theorem fullPrefix_eq (h : CleanName name) :
    HybridCache.fullPrefix channelAffinityCacheNamespace name =
      namespaceColon ++ (name ++ [':']) := by
  have hplain : BeginsPlainly name := by
    have hbegins : BeginsPlainly (name ++ []) := h.beginsPlainly (by rintro _ ⟨⟩)
    rwa [List.append_nil] at hbegins
  obtain ⟨s, c, rfl, hc, hcolon⟩ := h.exists_concat
  have hlast : (namespaceColon ++ (s ++ [c])).getLast? ≠ some ':' := by
    rw [← List.append_assoc, List.getLast?_concat]
    exact fun heq => hcolon (Option.some.inj heq)
  have hne : namespaceColon ++ (s ++ [c]) ≠ [] :=
    List.append_ne_nil_of_left_ne_nil namespaceColon_ne _
  rw [HybridCache.fullPrefix, (fullKey_eq_iff hc).mpr hplain,
    if_neg (not_or.mpr ⟨hne, hlast⟩), List.append_assoc]

theorem exists_fullKey_eq (hinclude : rule.includeRuleName = true) (h : CleanName rule.name)
    (r : Request) : ∃ rest,
      fullKey channelAffinityCacheNamespace (buildChannelAffinityCacheKeySuffix rule r) =
        namespaceColon ++ (rule.name ++ ':' :: rest) := by
  obtain ⟨rest, hrest⟩ : ∃ rest,
      buildChannelAffinityCacheKeySuffix rule r = rule.name ++ ':' :: rest := by
    rw [buildChannelAffinityCacheKeySuffix, if_pos ⟨hinclude, h.ne_nil⟩]
    generalize (if rule.includeModelName ∧ r.modelName ≠ [] then [r.modelName] else []) = model
    generalize (if rule.includeUsingGroup ∧ r.usingGroup ≠ [] then [r.usingGroup] else []) = group
    obtain ⟨next, tail, htail⟩ : ∃ next tail, model ++ group ++ [r.affinityValue] = next :: tail :=
      List.exists_cons_of_ne_nil (List.append_ne_nil_of_right_ne_nil _ (List.cons_ne_nil _ _))
    refine ⟨[':'].intercalate (next :: tail), ?_⟩
    rw [List.append_assoc, List.append_assoc, ← List.append_assoc model, htail,
      List.singleton_append, List.intercalate_cons_cons, List.append_assoc]
    rfl
  have hplain : BeginsPlainly (rule.name ++ ':' :: rest) :=
    h.beginsPlainly fun c hc => (Option.some.inj hc).symm
  obtain ⟨s, c, hs, hc⟩ := exists_suffix_eq rule r
  refine ⟨rest, ?_⟩
  rw [hs, fullKey_eq_iff hc |>.mpr, ← hs, hrest]
  rwa [← hs, hrest]

/-! ### Forgetting -/

section Clear

variable {server : Server} {before after : HybridCache ℤ} {rules : List ChannelAffinityRule} {m : ℕ}

theorem prefix_ne_nil : namespacePrefix channelAffinityCacheNamespace ≠ [] := by
  rw [namespacePrefix_eq]
  exact namespaceColon_ne

theorem plain_namespacePrefix : Plain (namespacePrefix channelAffinityCacheNamespace) := by
  rw [namespacePrefix_eq]
  decide +kernel

theorem plain_fullPrefix (hname : CleanName name) :
    Plain (HybridCache.fullPrefix channelAffinityCacheNamespace name) := by
  have hcolon : Plain [':'] := by decide +kernel
  rw [fullPrefix_eq hname, ← namespacePrefix_eq]
  exact List.forall_mem_append.mpr
    ⟨plain_namespacePrefix, List.forall_mem_append.mpr ⟨hname.plain, hcolon⟩⟩

/-- What a request of a rule finds when the entries of a name were deleted. -/
theorem get_deleteByPrefix (h : before.Kept intCodec channelAffinityCacheNamespace)
    (hname : CleanName name) (hinclude : rule.includeRuleName = true)
    (hrule : CleanName rule.name) (r : Request) :
    getPreferredChannelByAffinity
        (before.deleteByPrefix server channelAffinityCacheNamespace name).1 rule r =
      if rule.name = name then none else getPreferredChannelByAffinity before rule r := by
  have hne : HybridCache.fullPrefix channelAffinityCacheNamespace name ≠ [] := by
    rw [fullPrefix_eq hname]
    exact List.append_ne_nil_of_left_ne_nil namespaceColon_ne _
  obtain ⟨rest, hrest⟩ := exists_fullKey_eq hinclude hrule r
  have hkey : namespaceColon ++ (rule.name ++ ':' :: rest) ≠ [] :=
    List.append_ne_nil_of_left_ne_nil namespaceColon_ne _
  have hstarts : HybridCache.fullPrefix channelAffinityCacheNamespace name <+:
      namespaceColon ++ (rule.name ++ ':' :: rest) ↔ rule.name = name := by
    rw [fullPrefix_eq hname, List.prefix_append_right_inj,
      prefix_colon_iff hname.no_colon hrule.no_colon, eq_comm]
  rw [getPreferredChannelByAffinity_eq, getPreferredChannelByAffinity_eq, hrest, if_neg hkey,
    if_neg hkey, h.entry_deleteByPrefix prefix_ne_nil (plain_fullPrefix hname) hne]
  by_cases heq : rule.name = name
  · rw [if_pos heq, if_pos (hstarts.mpr heq)]
  · rw [if_neg heq, if_neg fun hpre => heq (hstarts.mp hpre)]

/-- **Clearing a rule** forgets its entries, and no entry of another rule. -/
theorem get_clear {db : Store Text String}
    (hdb : ∀ k ∈ db, ¬namespacePrefix channelAffinityCacheNamespace <+: k)
    {es : List (Event ℤ)} (hes : ∀ e ∈ es, Fair intCodec channelAffinityCacheNamespace e)
    {redisOn : Bool} {capacity : ℕ} (hpos : 0 < capacity)
    (hbefore : run (step server intCodec channelAffinityCacheNamespace)
      (start redisOn db capacity hpos) es = before)
    (hclear : clearChannelAffinityCacheByRuleName server rules name before = .ok (after, m))
    (hname : CleanName name) (hinclude : rule.includeRuleName = true)
    (hrule : CleanName rule.name) (r : Request) :
    getPreferredChannelByAffinity after rule r =
      if rule.name = name then none else getPreferredChannelByAffinity before rule r := by
  have hafter : after = (before.deleteByPrefix server channelAffinityCacheNamespace name).1 := by
    rw [clearChannelAffinityCacheByRuleName, hname.trimmed, if_neg hname.ne_nil] at hclear
    cases hfind : rules.find? fun r => decide (trimText r.name = name) with
    | none =>
      rw [hfind] at hclear
      cases hclear
    | some matchedRule =>
      simp only [hfind] at hclear
      split_ifs at hclear
      exact (congrArg Prod.fst (Except.ok.inj hclear)).symm
  have hkept : before.Kept intCodec channelAffinityCacheNamespace :=
    hbefore ▸ kept_run prefix_ne_nil (kept_start hdb redisOn hpos) hes
  rw [hafter, get_deleteByPrefix hkept hname hinclude hrule r]

end Clear

section Sample

theorem cleanName_trace : CleanName modelRule.name :=
  ⟨by decide, by decide, by decide, by decide, by decide +kernel⟩

/-- The channel of a chat. -/
def tracedChat : List (Event ℤ) :=
  [.call (.setWithTTL (namespaceColon ++ buildChannelAffinityCacheKeySuffix modelRule firstChat) 7)]

theorem fair_tracedChat :
    ∀ e ∈ tracedChat, Fair intCodec channelAffinityCacheNamespace e := by
  rw [tracedChat, List.forall_mem_singleton]
  exact ⟨by decide, by decide⟩

/-- The cache with this channel, on Redis. -/
def tracedCache : HybridCache ℤ :=
  run (step sampleServer intCodec channelAffinityCacheNamespace)
    (start true ∅ 100000 (by decide)) tracedChat

theorem clear_tracedCache :
    clearChannelAffinityCacheByRuleName sampleServer [modelRule] modelRule.name tracedCache =
      .ok (tracedCache.deleteByPrefix sampleServer channelAffinityCacheNamespace
        modelRule.name) := by
  have hfind : [modelRule].find? (fun r => decide (trimText r.name = modelRule.name)) =
      some modelRule := List.find?_cons_of_pos (decide_eq_true cleanName_trace.trimmed)
  rw [clearChannelAffinityCacheByRuleName, cleanName_trace.trimmed,
    if_neg cleanName_trace.ne_nil, hfind]
  rfl

/-- It is forgotten with all of its rule. -/
theorem get_clear_tracedCache :
    getPreferredChannelByAffinity
        (tracedCache.deleteByPrefix sampleServer channelAffinityCacheNamespace
          modelRule.name).1 modelRule firstChat =
      if modelRule.name = modelRule.name then none
      else getPreferredChannelByAffinity tracedCache modelRule firstChat :=
  get_clear (fun k hk => absurd hk (AList.notMem_empty k)) fair_tracedChat (by decide) rfl
    clear_tracedCache cleanName_trace rfl cleanName_trace firstChat

end Sample

end NewApiPool.ChannelAffinity
