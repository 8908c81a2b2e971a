import NewApiPool.Cachex.HybridCache

/-!
# The affinity of requests to channels

A rule takes a value from a request, and the channel that served it is remembered for the next
request with the same value. The key of the entry is made of the components that the rule includes,
the name of the rule, the model, the group, and of the value, with colons between them.

The entry is written under the full key and looked up under the key without the namespace, which is
trimmed at its beginning. So it is found again exactly if the key begins plainly
(`NewApiPool.ChannelAffinity.foundAgain_iff`); and as every component may hold a colon, the
requests of a rule have entries of their own only if it includes its name and nothing else but the
value (`NewApiPool.ChannelAffinity.affinity_iff`).
-/

namespace NewApiPool.ChannelAffinity

open Cachex GoText KeyStore

def channelAffinityCacheNamespace : Text := "new-api-pool:channel_affinity:v1".toList

/-- What a full key begins with. -/
def namespaceColon : Text := channelAffinityCacheNamespace ++ [':']

/-! ### Rules and requests -/

structure ChannelAffinityRule where
  name : Text
  includeRuleName : Bool
  includeModelName : Bool
  includeUsingGroup : Bool

/-- A request that a rule applies to: it has a model, and a value, which was trimmed. -/
structure Request where
  modelName : Text
  usingGroup : Text
  affinityValue : Text
  modelName_ne : modelName ≠ []
  value_ne : affinityValue ≠ []
  trimmed : trimText affinityValue = affinityValue

def buildChannelAffinityCacheKeySuffix (rule : ChannelAffinityRule) (r : Request) : Text :=
  [':'].intercalate
    ((if rule.includeRuleName ∧ rule.name ≠ [] then [rule.name] else []) ++
      (if rule.includeModelName ∧ r.modelName ≠ [] then [r.modelName] else []) ++
      (if rule.includeUsingGroup ∧ r.usingGroup ≠ [] then [r.usingGroup] else []) ++
      [r.affinityValue])

/-- `GetPreferredChannelByAffinity`, where the rule applies to the request. An error of the cache is
logged, and nothing is found. -/
def getPreferredChannelByAffinity (cache : HybridCache ℤ) (rule : ChannelAffinityRule)
    (r : Request) : Option ℤ :=
  (cache.get intCodec channelAffinityCacheNamespace
    (buildChannelAffinityCacheKeySuffix rule r)).join

/-- `RecordChannelAffinity`, under the key that the lookup has left in the context. -/
def recordChannelAffinity (cache : HybridCache ℤ) (rule : ChannelAffinityRule) (r : Request)
    (channelID : ℤ) : HybridCache ℤ :=
  if channelID ≤ 0 then cache
  else cache.setWithTTL intCodec channelAffinityCacheNamespace
    (namespaceColon ++ buildChannelAffinityCacheKeySuffix rule r) channelID

/-! ### What is claimed of an entry -/

/-- The channel that was recorded for a request is found again. -/
def FoundAgain (rule : ChannelAffinityRule) (r : Request) : Prop :=
  ∀ cache channelID, 0 < channelID → channelID < 2 ^ 63 →
    getPreferredChannelByAffinity (recordChannelAffinity cache rule r channelID) rule r =
      some channelID

/-- A request makes no difference to what another one finds. Where something must be given up for
its entry in memory, what the other one finds is what it found before. -/
def NeverReadBy (rule : ChannelAffinityRule) (r r' : Request) : Prop :=
  ∀ cache channelID,
    (cache.HasRoom (namespaceColon ++ buildChannelAffinityCacheKeySuffix rule r) →
      getPreferredChannelByAffinity (recordChannelAffinity cache rule r channelID) rule r' =
        getPreferredChannelByAffinity cache rule r') ∧
    ∀ found, getPreferredChannelByAffinity (recordChannelAffinity cache rule r channelID) rule r' =
      some found → getPreferredChannelByAffinity cache rule r' = some found

/-- Two requests differ in a component that the rule includes. -/
def Differ (rule : ChannelAffinityRule) (r r' : Request) : Prop :=
  (rule.includeModelName = true ∧ r.modelName ≠ r'.modelName) ∨
    (rule.includeUsingGroup = true ∧ r.usingGroup ≠ r'.usingGroup) ∨
    r.affinityValue ≠ r'.affinityValue

/-- A key is looked up as it is: it begins with no white space and no colon, and not with the
namespace. -/
def BeginsPlainly (key : Text) : Prop :=
  (∀ c, key.head? = some c → isSpace c = false ∧ c ≠ ':') ∧
    ¬namespaceColon <+: key

/-- **The rules whose requests have entries of their own.** -/
def Separates (rule : ChannelAffinityRule) : Prop :=
  rule.includeRuleName = true ∧ rule.includeModelName = false ∧ rule.includeUsingGroup = false ∧
    rule.name ≠ [] ∧ BeginsPlainly (rule.name ++ [':']) ∧
    ¬rule.name ++ [':'] <+: namespaceColon

variable {s t : Text} {c : Char} {rule : ChannelAffinityRule} {r r' : Request} {channelID : ℤ}
  {cache : HybridCache ℤ}

/-! ### Full keys -/

theorem namespacePrefix_eq : namespacePrefix channelAffinityCacheNamespace = namespaceColon := by
  decide +kernel

theorem plain_of_mem_namespaceColon : ∀ c ∈ namespaceColon, isSpace c = false := by
  have hall : namespaceColon.all (fun c => !isSpace c) = true := by decide +kernel
  exact fun c hc => Bool.not_eq_true' _ ▸ List.all_eq_true.1 hall c hc

theorem namespaceColon_ne : namespaceColon ≠ [] := by
  decide +kernel

theorem fullKey_concat (hc : isSpace c = false) :
    fullKey channelAffinityCacheNamespace (s ++ [c]) =
      if namespaceColon <+: (s ++ [c]).dropWhile isSpace then (s ++ [c]).dropWhile isSpace
      else namespaceColon ++ trimLeft ((s ++ [c]).dropWhile isSpace) := by
  have hne : (s ++ [c]).dropWhile isSpace ≠ [] := by
    intro h
    have hall := List.dropWhile_eq_nil_iff.1 h c
      (List.mem_append_right s (List.mem_singleton_self c))
    exact Bool.false_ne_true (hc.symm.trans hall)
  rw [fullKey, trimText_concat hc, namespacePrefix_eq]
  dsimp only
  rw [if_neg hne, if_neg namespaceColon_ne]

theorem fullKey_namespaceColon (hc : isSpace c = false) :
    fullKey channelAffinityCacheNamespace (namespaceColon ++ (s ++ [c])) =
      namespaceColon ++ (s ++ [c]) := by
  have hdrop : (namespaceColon ++ (s ++ [c])).dropWhile isSpace = namespaceColon ++ (s ++ [c]) := by
    refine dropWhile_of_head fun d hd => plain_of_mem_namespaceColon d ?_
    rw [List.head?_append_of_ne_nil _ namespaceColon_ne] at hd
    exact List.mem_of_head? hd
  rw [← List.append_assoc, fullKey_concat hc, List.append_assoc, hdrop,
    if_pos (List.prefix_append _ _)]

/-- **A key is looked up where it was recorded** exactly if it begins plainly: whatever is trimmed
makes it shorter. -/
theorem fullKey_eq_iff (hc : isSpace c = false) :
    fullKey channelAffinityCacheNamespace (s ++ [c]) = namespaceColon ++ (s ++ [c]) ↔
      BeginsPlainly (s ++ [c]) := by
  have hpos : 0 < namespaceColon.length := List.length_pos_of_ne_nil namespaceColon_ne
  rw [fullKey_concat hc]
  generalize hkey : s ++ [c] = key
  have hspaces := (List.dropWhile_suffix isSpace (l := key)).length_le
  have hcolons := (List.dropWhile_suffix (· == ':') (l := key.dropWhile isSpace)).length_le
  constructor
  · intro h
    split_ifs at h with hstart
    · have hlen := congrArg List.length h
      rw [List.length_append] at hlen
      omega
    · have hall : trimLeft (key.dropWhile isSpace) = key := List.append_cancel_left h
      have hlen := congrArg List.length hall
      rw [trimLeft] at hlen
      have hspace : key.dropWhile isSpace = key :=
        (List.dropWhile_suffix isSpace).eq_of_length (by omega)
      rw [hspace] at hall hstart
      refine ⟨fun d hd => ⟨head_of_dropWhile hspace hd, ?_⟩, hstart⟩
      have hcolon := head_of_dropWhile hall hd
      rintro rfl
      exact Bool.false_ne_true (hcolon.symm.trans (beq_self_eq_true ':'))
  · rintro ⟨hhead, hstart⟩
    have hspace : key.dropWhile isSpace = key := dropWhile_of_head fun d hd => (hhead d hd).1
    have hcolon : trimLeft key = key :=
      dropWhile_of_head fun d hd => beq_false_of_ne (hhead d hd).2
    rw [hspace, hcolon, if_neg hstart]

/-! ### Entries -/

theorem exists_suffix_eq (rule : ChannelAffinityRule) (r : Request) :
    ∃ l c, buildChannelAffinityCacheKeySuffix rule r = l ++ [c] ∧ isSpace c = false := by
  obtain ⟨v, c, hv, hc⟩ := exists_concat_of_trimText r.trimmed r.value_ne
  rw [buildChannelAffinityCacheKeySuffix]
  generalize (if rule.includeRuleName ∧ rule.name ≠ [] then [rule.name] else []) ++
    (if rule.includeModelName ∧ r.modelName ≠ [] then [r.modelName] else []) ++
    (if rule.includeUsingGroup ∧ r.usingGroup ≠ [] then [r.usingGroup] else []) = parts
  induction parts with
  | nil => exact ⟨v, c, by rw [List.nil_append, List.intercalate_singleton, hv], hc⟩
  | cons part parts ih =>
    obtain ⟨l, d, hl, hd⟩ := ih
    obtain ⟨next, rest, hparts⟩ : ∃ next rest, parts ++ [r.affinityValue] = next :: rest :=
      List.exists_cons_of_ne_nil (List.append_ne_nil_of_right_ne_nil _ (List.cons_ne_nil _ _))
    refine ⟨part ++ [':'] ++ l, d, ?_, hd⟩
    rw [List.cons_append, hparts, List.intercalate_cons_cons, ← hparts, hl]
    simp only [List.append_assoc]

theorem fullKey_record (rule : ChannelAffinityRule) (r : Request) :
    fullKey channelAffinityCacheNamespace
      (namespaceColon ++ buildChannelAffinityCacheKeySuffix rule r) =
        namespaceColon ++ buildChannelAffinityCacheKeySuffix rule r := by
  obtain ⟨l, c, hl, hc⟩ := exists_suffix_eq rule r
  rw [hl, fullKey_namespaceColon hc]

/-- A request reads the entry of another one, if it looks where it is. -/
def Reads (rule : ChannelAffinityRule) (r' r : Request) : Prop :=
  fullKey channelAffinityCacheNamespace (buildChannelAffinityCacheKeySuffix rule r') =
    namespaceColon ++ buildChannelAffinityCacheKeySuffix rule r

theorem reads_self_iff : Reads rule r r ↔
    BeginsPlainly (buildChannelAffinityCacheKeySuffix rule r) := by
  obtain ⟨l, c, hl, hc⟩ := exists_suffix_eq rule r
  rw [Reads, hl, fullKey_eq_iff hc]

theorem getPreferredChannelByAffinity_eq (cache : HybridCache ℤ) (rule : ChannelAffinityRule)
    (r : Request) :
    getPreferredChannelByAffinity cache rule r =
      if fullKey channelAffinityCacheNamespace (buildChannelAffinityCacheKeySuffix rule r) = []
      then none
      else cache.entry intCodec
        (fullKey channelAffinityCacheNamespace (buildChannelAffinityCacheKeySuffix rule r)) :=
  HybridCache.join_get cache _

theorem get_record_of_reads (h : Reads rule r' r) (hpos : 0 < channelID)
    (hlt : channelID < 2 ^ 63) :
    getPreferredChannelByAffinity (recordChannelAffinity cache rule r channelID) rule r' =
      some channelID := by
  have hfull : fullKey channelAffinityCacheNamespace
      (namespaceColon ++ buildChannelAffinityCacheKeySuffix rule r) ≠ [] := by
    rw [fullKey_record]
    exact List.append_ne_nil_of_left_ne_nil namespaceColon_ne _
  rw [Reads, ← fullKey_record] at h
  rw [getPreferredChannelByAffinity_eq, h, if_neg hfull, recordChannelAffinity,
    if_neg (Int.not_le.mpr hpos)]
  exact HybridCache.entry_setWithTTL_self ⟨hpos, hlt⟩ hfull

theorem get_record_of_not_reads (h : ¬Reads rule r' r) :
    (cache.HasRoom (namespaceColon ++ buildChannelAffinityCacheKeySuffix rule r) →
      getPreferredChannelByAffinity (recordChannelAffinity cache rule r channelID) rule r' =
        getPreferredChannelByAffinity cache rule r') ∧
    ∀ found, getPreferredChannelByAffinity (recordChannelAffinity cache rule r channelID) rule r' =
      some found → getPreferredChannelByAffinity cache rule r' = some found := by
  rw [Reads, ← fullKey_record] at h
  rw [recordChannelAffinity]
  by_cases hid : channelID ≤ 0
  · rw [if_pos hid]
    exact ⟨fun _ => rfl, fun _ => id⟩
  rw [if_neg hid, getPreferredChannelByAffinity_eq, getPreferredChannelByAffinity_eq]
  by_cases hfull : fullKey channelAffinityCacheNamespace
      (buildChannelAffinityCacheKeySuffix rule r') = []
  · rw [if_pos hfull, if_pos hfull]
    exact ⟨fun _ => rfl, fun _ => id⟩
  rw [if_neg hfull, if_neg hfull]
  refine ⟨fun hroom => ?_, fun found hfound => ?_⟩
  · rw [← fullKey_record] at hroom
    exact HybridCache.entry_setWithTTL_of_room hroom h
  · rcases HybridCache.entry_setWithTTL_of_ne h with hentry | hentry
    · exact hentry ▸ hfound
    · rw [hentry] at hfound
      cases hfound

/-- A cache in memory that has nothing yet. -/
def emptyCache : HybridCache ℤ := ⟨false, ∅, .empty 1 Nat.one_pos⟩

theorem get_empty (rule : ChannelAffinityRule) (r : Request) :
    getPreferredChannelByAffinity emptyCache rule r = none := by
  rw [getPreferredChannelByAffinity_eq, HybridCache.entry_memory rfl]
  exact ite_eq_left_iff.mpr fun _ => AList.lookup_empty _

theorem neverReadBy_iff : NeverReadBy rule r r' ↔ ¬Reads rule r' r := by
  constructor
  · intro h hreads
    have hempty := (h emptyCache 1).2 1 (get_record_of_reads hreads Int.one_pos (by decide))
    rw [get_empty] at hempty
    cases hempty
  · exact fun h cache channelID => get_record_of_not_reads h

/-- **An entry is found again** exactly if its key begins plainly. -/
theorem foundAgain_iff : FoundAgain rule r ↔
    BeginsPlainly (buildChannelAffinityCacheKeySuffix rule r) := by
  rw [← reads_self_iff]
  constructor
  · intro h
    by_contra hreads
    have hempty := (get_record_of_not_reads hreads).2 1 (h emptyCache 1 Int.one_pos (by decide))
    rw [get_empty] at hempty
    cases hempty
  · exact fun h cache channelID hpos hlt => get_record_of_reads h hpos hlt

/-! ### The rules -/

/-- What the requests of a rule are promised. -/
def Promised (rule : ChannelAffinityRule) : Prop :=
  ∀ r, FoundAgain rule r ∧ ∀ r', Differ rule r r' → NeverReadBy rule r r'

/-- Two requests of a rule that keeps its promise have different keys if they differ. -/
theorem Promised.key_ne (h : Promised rule) (hdiffer : Differ rule r r') :
    buildChannelAffinityCacheKeySuffix rule r' ≠ buildChannelAffinityCacheKeySuffix rule r := by
  intro heq
  refine neverReadBy_iff.1 ((h r).2 r' hdiffer) ?_
  rw [Reads, heq]
  exact reads_self_iff.2 (foundAgain_iff.1 (h r).1)

/-- **A component besides the name and the value** can give a part of itself to the value. -/
theorem Promised.includeModelName (h : Promised rule) : rule.includeModelName = false := by
  by_contra hmodel
  rw [Bool.not_eq_false] at hmodel
  let r : Request := ⟨['a'], [], ['b', ':', 'c'], by decide, by decide, by decide⟩
  let r' : Request := ⟨['a', ':', 'b'], [], ['c'], by decide, by decide, by decide⟩
  have hdiffer : Differ rule r r' := Or.inl ⟨hmodel, by decide⟩
  refine h.key_ne hdiffer ?_
  simp only [buildChannelAffinityCacheKeySuffix, hmodel]
  split_ifs <;> simp_all [r, r', List.intercalate_cons_cons]

theorem Promised.includeUsingGroup (h : Promised rule) : rule.includeUsingGroup = false := by
  by_contra hgroup
  rw [Bool.not_eq_false] at hgroup
  let r : Request := ⟨['m'], ['a'], ['b', ':', 'c'], by decide, by decide, by decide⟩
  let r' : Request := ⟨['m'], ['a', ':', 'b'], ['c'], by decide, by decide, by decide⟩
  have hdiffer : Differ rule r r' := Or.inr (Or.inl ⟨hgroup, by decide⟩)
  refine h.key_ne hdiffer ?_
  simp only [buildChannelAffinityCacheKeySuffix, hgroup, h.includeModelName]
  split_ifs <;> simp_all [r, r', List.intercalate_cons_cons]

/-- The key of a rule that includes its name and nothing else. -/
theorem suffix_eq (hname : rule.includeRuleName = true) (hne : rule.name ≠ [])
    (hmodel : rule.includeModelName = false) (hgroup : rule.includeUsingGroup = false)
    (r : Request) :
    buildChannelAffinityCacheKeySuffix rule r = rule.name ++ [':'] ++ r.affinityValue := by
  simp [buildChannelAffinityCacheKeySuffix, hname, hne, hmodel, hgroup, List.intercalate_cons_cons]

theorem Promised.includeRuleName (h : Promised rule) :
    rule.includeRuleName = true ∧ rule.name ≠ [] := by
  by_contra hname
  let r : Request := ⟨['m'], [], [':', 'a'], by decide, by decide, by decide⟩
  have hsuffix : buildChannelAffinityCacheKeySuffix rule r = [':', 'a'] := by
    simp [buildChannelAffinityCacheKeySuffix, hname, h.includeModelName, h.includeUsingGroup, r]
  have hplain := foundAgain_iff.1 (h r).1
  rw [hsuffix] at hplain
  exact (hplain.1 ':' rfl).2 rfl

theorem head?_append_value {name value : Text} :
    (name ++ [':'] ++ value).head? = (name ++ [':']).head? :=
  List.head?_append_of_ne_nil _ (List.append_ne_nil_of_right_ne_nil _ (List.cons_ne_nil _ _))

theorem Promised.separates (h : Promised rule) : Separates rule := by
  obtain ⟨hname, hne⟩ := h.includeRuleName
  have hmodel := h.includeModelName
  have hgroup := h.includeUsingGroup
  have hplain (r : Request) : BeginsPlainly (rule.name ++ [':'] ++ r.affinityValue) := by
    rw [← suffix_eq hname hne hmodel hgroup r]
    exact foundAgain_iff.1 (h r).1
  refine ⟨hname, hmodel, hgroup, hne, ?_, ?_⟩
  · obtain ⟨hhead, hstart⟩ := hplain ⟨['m'], [], ['a'], by decide, by decide, by decide⟩
    rw [head?_append_value] at hhead
    exact ⟨hhead, fun hpre => hstart (hpre.trans (List.prefix_append _ _))⟩
  · -- the value may be the rest of the namespace, and something behind it
    rintro ⟨rest, hrest⟩
    have htrimmed : trimText (rest ++ ['a']) = rest ++ ['a'] := by
      refine trimText_of_forall fun c hc => ?_
      rcases List.mem_append.1 hc with hc | hc
      · exact plain_of_mem_namespaceColon c (hrest ▸ List.mem_append_right _ hc)
      · obtain rfl := List.mem_singleton.1 hc
        decide
    obtain ⟨-, hstart⟩ := hplain ⟨['m'], [], rest ++ ['a'], by decide,
      List.append_ne_nil_of_right_ne_nil _ (List.cons_ne_nil _ _), htrimmed⟩
    refine hstart ⟨['a'], ?_⟩
    dsimp only
    rw [← hrest, ← List.append_assoc]

theorem Separates.promised (h : Separates rule) : Promised rule := by
  obtain ⟨hname, hmodel, hgroup, hne, ⟨hhead, hstart⟩, hrest⟩ := h
  have hkey := suffix_eq hname hne hmodel hgroup
  have hplain (r : Request) : BeginsPlainly (buildChannelAffinityCacheKeySuffix rule r) := by
    rw [hkey r]
    refine ⟨fun c hc => hhead c (by rwa [head?_append_value] at hc), fun hprefix => ?_⟩
    rcases List.prefix_or_prefix_of_prefix hprefix (List.prefix_append _ r.affinityValue) with h | h
    · exact hstart h
    · exact hrest h
  refine fun r => ⟨foundAgain_iff.2 (hplain r), fun r' hdiffer => ?_⟩
  refine neverReadBy_iff.2 fun hreads => ?_
  have hvalue : r.affinityValue ≠ r'.affinityValue := by
    rcases hdiffer with h | h | h
    · exact absurd (hmodel.symm.trans h.1) Bool.false_ne_true
    · exact absurd (hgroup.symm.trans h.1) Bool.false_ne_true
    · exact h
  have hself := reads_self_iff.2 (hplain r')
  rw [Reads] at hreads hself
  rw [hself, hkey, hkey] at hreads
  exact hvalue (List.append_cancel_left (List.append_cancel_left hreads)).symm

/-- **Affinity entries**: the channel of a request is found again exactly if its key begins plainly;
and a rule finds all of them again, and keeps different requests apart, exactly if it includes its
name and nothing else but the value, and its name begins neither with white space, nor with a
colon, nor like the namespace. -/
theorem affinity_iff (rule : ChannelAffinityRule) :
    (∀ r, FoundAgain rule r ↔ BeginsPlainly (buildChannelAffinityCacheKeySuffix rule r)) ∧
    ((∀ r, FoundAgain rule r ∧ ∀ r', Differ rule r r' → NeverReadBy rule r r') ↔
      Separates rule) :=
  ⟨fun _ => foundAgain_iff, fun h => Promised.separates h, fun h => h.promised⟩

/-- A rule that includes its name and the model. -/
def modelRule : ChannelAffinityRule := ⟨"trace".toList, true, true, false⟩

def firstChat : Request :=
  ⟨"llama3".toList, "default".toList, "8b:chat".toList, by decide +kernel, by decide +kernel,
    by decide +kernel⟩

def secondChat : Request :=
  ⟨"llama3:8b".toList, "default".toList, "chat".toList, by decide +kernel, by decide +kernel,
    by decide +kernel⟩

/-- Two chats with different models and different values have one entry. -/
theorem not_neverReadBy_chats : Differ modelRule firstChat secondChat ∧
    ¬NeverReadBy modelRule firstChat secondChat := by
  have hdiffer : firstChat.affinityValue ≠ secondChat.affinityValue := by decide +kernel
  have hreads : Reads modelRule secondChat firstChat := by
    unfold Reads
    decide +kernel
  exact ⟨Or.inr (Or.inr hdiffer), fun h => neverReadBy_iff.1 h hreads⟩

end NewApiPool.ChannelAffinity
