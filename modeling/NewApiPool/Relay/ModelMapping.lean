import Mathlib.Data.List.AList
import Mathlib.Data.Rat.Defs
import NewApiPool.Lib.Chain
import NewApiPool.Lib.GoText

/-!
# The model mapping and its retries

One request is tried on one channel after the other, and every channel may map the model to
another name. `InitChannelMeta` starts an attempt from `OriginModelName`, and
`ModelMappedHelper` follows the redirections of the channel's map from there.

Two handlers also write `OriginModelName`, and the next attempt starts from what they wrote
(`sameNames_iff`). For a compact response it becomes the name the model was mapped to, with the
compact suffix, and it is under this name that the attempt is priced and logged. For a request to
Gemini that asks for no thinking it becomes the name of the model with `-nothinking`, where that
name has a price. The other handlers leave `OriginModelName` as it is: `RelayTaskSubmit` writes it
as well, but only the name that it has started from.
-/

namespace NewApiPool.Relay

open Chain GoText

/-! ### Names -/

def compactModelSuffix : String := "-openai-compact"

def withCompactModelSuffix (modelName : String) : String :=
  if endsWith modelName compactModelSuffix then modelName else modelName ++ compactModelSuffix

/-- A model map, as it is decoded. -/
abbrev ModelMap := AList fun _ : String => String

/-- The redirections of a map. An empty name is none. -/
def ModelMap.redirects (m : ModelMap) : Redirects String where
  next model := (m.lookup model).filter (· ≠ "")
  targets := m.entries.map Sigma.snd
  mem_targets := fun {a b} h => by
    obtain ⟨hlookup, -⟩ := Option.filter_eq_some_iff.mp h
    exact List.mem_map.mpr ⟨⟨a, b⟩, AList.mem_lookup_iff.mp hlookup, rfl⟩

/-- What an attempt uses of its channel: whether the channel has compact responses, and its model
map, or `none` where the text of it is not read. The texts `""` and `"\x7b\x7d"` are empty maps. -/
structure MappedChannel where
  compact : Bool
  modelMapping : Option ModelMap

/-- What the settings say of the prices of a model: its fixed price, its ratio, the mode it is
billed in and its expression, as far as there are any. -/
structure BillingConfig where
  getModelPrice : String → Option ℚ
  getModelRatio : String → Option ℚ
  getBillingMode : String → String
  getBillingExpr : String → Option String

def BillingConfig.hasModelBillingConfig (config : BillingConfig) (modelName : String) : Bool :=
  (config.getModelPrice modelName).isSome || (config.getModelRatio modelName).isSome ||
    (config.getBillingMode modelName = "tiered_expr" &&
      (config.getBillingExpr modelName).any fun expr => trimSpace expr ≠ "")

/-- The handler that tries a request on a channel, with what it reads beside the model. -/
inductive Handler
  /-- `ResponsesHelper`, for a compact response -/
  | compact
  /-- `GeminiHelper`, with the setting `ThinkingAdapterEnabled` and the `ThinkingBudget` of the
  request, if it has one -/
  | gemini (thinkingAdapterEnabled : Bool) (thinkingBudget : Option ℤ)
  /-- the other ones -/
  | other

def noThinkingSuffix : String := "-nothinking"

/-- The condition of `GeminiHelper` on the request and on the name it is tried under: it asks for
no thinking, its name does not say so yet, and the name that does has a price. -/
def Handler.renames (config : BillingConfig) : Handler → (originModelName : String) → Bool
  | gemini thinkingAdapterEnabled thinkingBudget, originModelName =>
    -- `isNoThinkingRequest`: the budget is there, and it is `0`
    thinkingAdapterEnabled && thinkingBudget == some 0 &&
      !contains originModelName noThinkingSuffix &&
      config.hasModelBillingConfig (originModelName ++ noThinkingSuffix)
  | _, _ => false

/-- `RelayInfo` and the request, as far as they name the model. -/
structure ModelInfo where
  originModelName : String
  upstreamModelName : String := ""
  isModelMapped : Bool := false
  /-- the model of the request that is sent; one to Gemini has none -/
  requestModel : String := ""
  deriving DecidableEq

namespace ModelInfo

/-- `InitChannelMeta`, after `SetupContextForSelectedChannel` with the name of the model. -/
def initChannelMeta (info : ModelInfo) : ModelInfo :=
  { info with
    upstreamModelName := info.originModelName
    isModelMapped := false
    requestModel := info.originModelName }

/-- The name the map is asked for. -/
def mappingModelName (compact : Bool) (originModelName : String) : String :=
  if compact then trimSuffix originModelName compactModelSuffix else originModelName

/-- The end of `ModelMappedHelper`. -/
def finish (compact : Bool) (mappingModelName : String) (info : ModelInfo) : ModelInfo :=
  let info :=
    if compact then
      let finalUpstreamModelName :=
        if info.isModelMapped ∧ info.upstreamModelName ≠ "" then info.upstreamModelName
        else mappingModelName
      { info with
        upstreamModelName := finalUpstreamModelName
        originModelName := withCompactModelSuffix finalUpstreamModelName }
    else info
  { info with requestModel := info.upstreamModelName }

/-- `ModelMappedHelper`: what it returns, and what it leaves. -/
def modelMappedHelper (compact : Bool) (modelMapping : Option ModelMap) (info : ModelInfo) :
    Option String × ModelInfo :=
  let start := mappingModelName compact info.originModelName
  match modelMapping with
  | none => (some "unmarshal_model_mapping_failed", info)
  | some m =>
    match chase m.redirects [start] start with
    | .cycle => (some "model_mapping_contains_cycle", { info with isModelMapped := true })
    | .loop t =>
      if t = info.originModelName then (none, { info with isModelMapped := false })
      else (none, { info with isModelMapped := true, upstreamModelName := t }.finish compact start)
    | .stop t =>
      (none, (if t = start then info
        else { info with isModelMapped := true, upstreamModelName := t }).finish compact start)

/-- `GeminiHelper`, after the mapping. -/
def renamed (config : BillingConfig) (handler : Handler) (info : ModelInfo) : ModelInfo :=
  if handler.renames config info.originModelName then
    let noThinkingModelName := info.originModelName ++ noThinkingSuffix
    { info with originModelName := noThinkingModelName, upstreamModelName := noThinkingModelName }
  else info

/-- An attempt, as far as it names the model: a channel may have no compact responses. -/
def attempt (config : BillingConfig) (handler : Handler) (info : ModelInfo)
    (channel : MappedChannel) : Option String × ModelInfo :=
  let info := info.initChannelMeta
  match handler with
  | .compact =>
    if ¬channel.compact then (some "unsupported endpoint", info)
    else info.modelMappedHelper true channel.modelMapping
  | .gemini _ _ =>
    let (err, info) := info.modelMappedHelper false channel.modelMapping
    -- `GeminiChatRequest.SetModelName` does nothing
    let info := { info with requestModel := "" }
    if err.isSome then (err, info) else (none, info.renamed config handler)
  | .other => info.modelMappedHelper false channel.modelMapping

/-- One attempt after the other: what they leave. -/
def tried (config : BillingConfig) (handler : Handler) (info : ModelInfo)
    (channels : List MappedChannel) : ModelInfo :=
  channels.foldl (fun info channel => (info.attempt config handler channel).2) info

end ModelInfo

/-- The model of a fresh request: the distributor adds the suffix for a compact response. -/
def clientModel (handler : Handler) (model : String) : String :=
  match handler with
  | .compact => withCompactModelSuffix model
  | _ => model

/-- **The channel leaves the model as it is.** For a compact response it has none of these, its
map is not read or has a cycle, or the chain from the model ends in the model, with or without the
suffix. For a request to Gemini the model is not renamed, or the map is not read or has a cycle. -/
def MappedChannel.Keeps (config : BillingConfig) (handler : Handler) (channel : MappedChannel)
    (model : String) : Prop :=
  match handler with
  | .compact => channel.compact = true → ∀ m ∈ channel.modelMapping, ∀ t,
      Leads m.redirects (trimSuffix model compactModelSuffix) t → withCompactModelSuffix t = model
  | .gemini _ _ => handler.renames config model = true → ∀ m ∈ channel.modelMapping, ∀ t,
      ¬Leads m.redirects model t
  | .other => True

/-! ### What an attempt leaves -/

theorem withCompactModelSuffix_of_endsWith {model : String}
    (h : endsWith model compactModelSuffix = true) : withCompactModelSuffix model = model := by
  rw [withCompactModelSuffix, if_pos h]

theorem endsWith_withCompactModelSuffix (model : String) :
    endsWith (withCompactModelSuffix model) compactModelSuffix = true := by
  rw [withCompactModelSuffix]
  split
  · assumption
  · exact endsWith_append model compactModelSuffix

/-- No chain leads to the empty name, unless it starts there. -/
theorem ModelMap.next_ne_empty {m : ModelMap} {a b : String} (h : m.redirects.next a = some b) :
    b ≠ "" := by
  obtain ⟨-, hne⟩ := Option.filter_eq_some_iff.mp h
  exact of_decide_eq_true hne

theorem ModelMap.leads_ne_empty {m : ModelMap} {a t : String} (h : Leads m.redirects a t) :
    t = a ∨ t ≠ "" := by
  induction h with
  | stop _ => exact Or.inl rfl
  | loop _ => exact Or.inl rfl
  | step h _ _ ih =>
    rcases ih with rfl | hne
    · exact Or.inr (next_ne_empty h)
    · exact Or.inr hne

namespace ModelInfo

variable {config : BillingConfig} {handler : Handler}

/-- An attempt starts from the name of the model, whatever the one before has left. -/
theorem attempt_congr {info info' : ModelInfo} (channel : MappedChannel)
    (h : info.originModelName = info'.originModelName) :
    info.attempt config handler channel = info'.attempt config handler channel := by
  have hinit : info.initChannelMeta = info'.initChannelMeta := by
    rw [initChannelMeta, initChannelMeta, h]
  unfold attempt
  rw [hinit]

theorem originModelName_finish_mapped (start : String) (info : ModelInfo) {t : String}
    (ht : t ≠ "") :
    ({ info with isModelMapped := true, upstreamModelName := t }.finish true start).originModelName
      = withCompactModelSuffix t := by
  simp [finish, ht]

/-- The mapping of a request that is not compact leaves the name. -/
theorem originModelName_modelMappedHelper_false (modelMapping : Option ModelMap)
    (info : ModelInfo) :
    (info.modelMappedHelper false modelMapping).2.originModelName = info.originModelName := by
  cases modelMapping with
  | none => rfl
  | some m =>
    rw [modelMappedHelper]
    split
    · rfl
    · split <;> rfl
    · split <;> rfl

/-- **The mapping fails exactly where no name is led to.** -/
theorem isSome_modelMappedHelper_false (modelMapping : Option ModelMap) (info : ModelInfo) :
    (info.modelMappedHelper false modelMapping).1.isSome = true ↔
      ∀ m ∈ modelMapping, ∀ t, ¬Leads m.redirects info.originModelName t := by
  cases modelMapping with
  | none => exact iff_of_true rfl fun m hm => absurd hm (Option.not_mem_none m)
  | some m =>
    have hspec := chase_spec (trail_start (r := m.redirects) info.originModelName)
    rw [modelMappedHelper]
    simp only [mappingModelName, Bool.false_eq_true, if_false]
    cases hchase : chase m.redirects [info.originModelName] info.originModelName with
    | cycle =>
      rw [hchase] at hspec
      refine iff_of_true rfl fun m' hm' t ht => ?_
      cases hm'
      exact hspec t ht
    | loop t =>
      rw [hchase] at hspec
      refine iff_of_false ?_ fun h => h m rfl t hspec.1
      dsimp only
      split <;> exact Bool.false_ne_true
    | stop t =>
      rw [hchase] at hspec
      exact iff_of_false Bool.false_ne_true fun h => h m rfl t hspec.1

/-- **A request to Gemini keeps its name exactly where the channel leaves it.** -/
theorem originModelName_attempt_gemini {thinkingAdapterEnabled : Bool}
    {thinkingBudget : Option ℤ} (info : ModelInfo) (channel : MappedChannel) :
    (info.attempt config (.gemini thinkingAdapterEnabled thinkingBudget)
      channel).2.originModelName = info.originModelName ↔
      channel.Keeps config (.gemini thinkingAdapterEnabled thinkingBudget)
        info.originModelName := by
  have hname : (info.initChannelMeta.modelMappedHelper false
      channel.modelMapping).2.originModelName = info.originModelName :=
    originModelName_modelMappedHelper_false channel.modelMapping info.initChannelMeta
  have hfails := isSome_modelMappedHelper_false channel.modelMapping info.initChannelMeta
  have hinit : info.initChannelMeta.originModelName = info.originModelName := rfl
  rw [hinit] at hfails
  rw [attempt, MappedChannel.Keeps, ← hfails]
  dsimp only
  split_ifs with herr
  · exact iff_of_true hname fun _ => herr
  · unfold renamed
    simp only [hname]
    split_ifs with hrenames
    · refine iff_of_false (fun hsame => ?_) fun h => herr (h hrenames)
      -- a renamed model is longer
      have hlength := congrArg String.length hsame
      rw [String.length_append] at hlength
      have hsuffix : noThinkingSuffix.length = 11 := rfl
      omega
    · exact iff_of_true rfl fun h => absurd h hrenames

/-- **A compact request keeps its name exactly where the channel leaves it.** -/
theorem originModelName_attempt_compact {info : ModelInfo} (channel : MappedChannel)
    (hsuffix : endsWith info.originModelName compactModelSuffix = true) :
    (info.attempt config .compact channel).2.originModelName = info.originModelName ↔
      channel.Keeps config .compact info.originModelName := by
  rw [attempt]
  cases hcompact : channel.compact with
  | false =>
    rw [if_pos Bool.false_ne_true]
    exact iff_of_true rfl fun h => absurd (hcompact.symm.trans h) Bool.false_ne_true
  | true =>
    rw [if_neg fun h => h rfl]
    cases hm : channel.modelMapping with
    | none => exact iff_of_true rfl fun _ m hmem => by rw [hm] at hmem; cases hmem
    | some m =>
      generalize hstart : trimSuffix info.originModelName compactModelSuffix = start
      have hspec := chase_spec (trail_start (r := m.redirects) start)
      have hkeeps {t : String} (ht : Leads m.redirects start t) :
          channel.Keeps config .compact info.originModelName ↔
            withCompactModelSuffix t = info.originModelName := by
        rw [MappedChannel.Keeps, hm, hstart]
        refine ⟨fun h => h hcompact m rfl t ht, fun h _ m' hm' t' ht' => ?_⟩
        cases hm'
        exact ht'.unique ht ▸ h
      have hname : mappingModelName true info.initChannelMeta.originModelName = start := hstart
      rw [modelMappedHelper]
      rw [hname]
      -- the helper ends at the end of the chain, and writes its name with the suffix
      cases hchase : chase m.redirects [start] start with
      | cycle =>
        rw [hchase] at hspec
        refine iff_of_true rfl fun _ m' hm' t ht => ?_
        rw [hm] at hm'
        cases hm'
        exact absurd (hstart ▸ ht) (hspec t)
      | loop t =>
        rw [hchase] at hspec
        rw [hkeeps hspec.1]
        dsimp only
        split
        · rename_i ht
          have ht' : t = info.originModelName := ht
          rw [ht', withCompactModelSuffix_of_endsWith hsuffix]
          exact iff_of_true rfl rfl
        · rw [originModelName_finish_mapped start _ (ModelMap.next_ne_empty hspec.2)]
      | stop t =>
        rw [hchase] at hspec
        rw [hkeeps hspec.1]
        dsimp only
        split
        · rename_i ht
          rw [ht]
          rfl
        · rename_i ht
          rw [originModelName_finish_mapped start _
            ((ModelMap.leads_ne_empty hspec.1).resolve_left ht)]

/-- **An attempt leaves the name exactly where its channel does.** -/
theorem originModelName_attempt {info : ModelInfo} (channel : MappedChannel)
    (hsuffix : handler = .compact → endsWith info.originModelName compactModelSuffix = true) :
    (info.attempt config handler channel).2.originModelName = info.originModelName ↔
      channel.Keeps config handler info.originModelName := by
  cases handler with
  | compact => exact originModelName_attempt_compact channel (hsuffix rfl)
  | gemini _ _ => exact originModelName_attempt_gemini info channel
  | other =>
    exact iff_of_true
      (originModelName_modelMappedHelper_false channel.modelMapping info.initChannelMeta) trivial

/-- A channel that no attempt is sent to shows the name the attempt starts from. -/
theorem originModelName_attempt_probe (info : ModelInfo) :
    (info.attempt config handler ⟨false, none⟩).2.originModelName = info.originModelName := by
  cases handler <;> rfl

theorem tried_concat (info : ModelInfo) (channels : List MappedChannel)
    (channel : MappedChannel) : info.tried config handler (channels ++ [channel]) =
      ((info.tried config handler channels).attempt config handler channel).2 := by
  rw [tried, List.foldl_append]
  rfl

/-- The name stays as long as every channel leaves it. -/
theorem originModelName_tried {info : ModelInfo} {channels : List MappedChannel}
    (hsuffix : handler = .compact → endsWith info.originModelName compactModelSuffix = true)
    (h : ∀ channel ∈ channels, channel.Keeps config handler info.originModelName) :
    (info.tried config handler channels).originModelName = info.originModelName := by
  induction channels using List.reverseRecOn with
  | nil => rfl
  | append_singleton channels channel ih =>
    have hbefore := ih fun c hmem => h c (List.mem_append_left _ hmem)
    rw [tried_concat, attempt_congr channel hbefore]
    exact (originModelName_attempt channel hsuffix).mpr
      (h channel (List.mem_append_right _ (List.mem_singleton_self channel)))

end ModelInfo

/-- **The names do not depend on the channels that were tried before** exactly where every one of
these channels leaves the model of the client. -/
theorem sameNames_iff (config : BillingConfig) (handler : Handler) (model : String)
    (before : List MappedChannel) :
    (∀ n channel,
      (({ originModelName := clientModel handler model } : ModelInfo).tried config handler
        (before.take n)).attempt config handler channel =
          ({ originModelName := clientModel handler model } : ModelInfo).attempt config handler
            channel) ↔
      ∀ channel ∈ before, channel.Keeps config handler (clientModel handler model) := by
  generalize hinfo : ({ originModelName := clientModel handler model } : ModelInfo) = info
  have hname : clientModel handler model = info.originModelName := by rw [← hinfo]
  have hsuffix (hc : handler = .compact) :
      endsWith info.originModelName compactModelSuffix = true := by
    rw [← hname, hc]
    exact endsWith_withCompactModelSuffix model
  rw [hname]
  constructor
  · intro h channel hmem
    -- a channel that refuses the attempt shows the name that it starts from
    have horigin (n : ℕ) : (info.tried config handler (before.take n)).originModelName =
        info.originModelName := by
      have hprobe := congrArg (fun r => r.2.originModelName) (h n ⟨false, none⟩)
      rwa [ModelInfo.originModelName_attempt_probe,
        ModelInfo.originModelName_attempt_probe] at hprobe
    obtain ⟨n, hn⟩ := List.mem_iff_getElem?.mp hmem
    have htake : before.take (n + 1) = before.take n ++ [channel] := by
      rw [List.take_add_one, hn]
      rfl
    refine (ModelInfo.originModelName_attempt channel hsuffix).mp ?_
    rw [← ModelInfo.attempt_congr channel (horigin n), ← ModelInfo.tried_concat, ← htake]
    exact horigin (n + 1)
  · intro h n channel
    exact ModelInfo.attempt_congr channel (ModelInfo.originModelName_tried hsuffix fun c hmem =>
      h c (List.mem_of_mem_take hmem))

/-- The settings that have a ratio for the preview of Gemini without thinking. -/
def noThinkingPriced : BillingConfig where
  getModelPrice _ := none
  getModelRatio model :=
    if model = "gemini-2.5-flash-preview-05-20-nothinking" then some (75 / 1000) else none
  getBillingMode _ := "ratio"
  getBillingExpr _ := none

/-- The first channel maps the model to its small version. The second, which maps nothing, is
asked for the small version too, and it is priced under that name. And a request to Gemini without
thinking, sent again to a channel whose map knows the name the first attempt has made, is sent to
another model than at once. -/
theorem not_sameNames :
    ((({ originModelName := clientModel .compact "gpt-5" } : ModelInfo).tried noThinkingPriced
        .compact [⟨true, some (AList.singleton "gpt-5" "gpt-5-mini")⟩]).attempt noThinkingPriced
          .compact ⟨true, some ∅⟩ =
      (none, ⟨"gpt-5-mini-openai-compact", "gpt-5-mini", false, "gpt-5-mini"⟩) ∧
    ({ originModelName := clientModel .compact "gpt-5" } : ModelInfo).attempt noThinkingPriced
        .compact ⟨true, some ∅⟩ =
      (none, ⟨"gpt-5-openai-compact", "gpt-5", false, "gpt-5"⟩)) ∧
    let handler := Handler.gemini true (some 0)
    let model := "gemini-2.5-flash-preview-05-20"
    let noThinking := "gemini-2.5-flash-preview-05-20-nothinking"
    let channel : MappedChannel := ⟨true, some (AList.singleton noThinking "gemini-flash")⟩
    (({ originModelName := clientModel handler model } : ModelInfo).tried noThinkingPriced handler
        [⟨true, some ∅⟩]).attempt noThinkingPriced handler channel =
      (none, ⟨noThinking, "gemini-flash", true, ""⟩) ∧
    ({ originModelName := clientModel handler model } : ModelInfo).attempt noThinkingPriced handler
        channel = (none, ⟨noThinking, noThinking, false, ""⟩) := by
  have hempty (model : String) (visited : List String) :
      chase (ModelMap.redirects ∅) visited model = .stop model :=
    chase_of_none rfl
  have hfirst : chase (ModelMap.redirects (AList.singleton "gpt-5" "gpt-5-mini")) ["gpt-5"]
      "gpt-5" = .stop "gpt-5-mini" :=
    (chase_of_not_mem rfl (by decide)).trans (chase_of_none rfl)
  have hclient : clientModel .compact "gpt-5" = "gpt-5-openai-compact" := by decide +kernel
  have hstart : trimSuffix "gpt-5-openai-compact" compactModelSuffix = "gpt-5" := by
    decide +kernel
  have hmini : trimSuffix "gpt-5-mini-openai-compact" compactModelSuffix = "gpt-5-mini" := by
    decide +kernel
  have hsuffix : withCompactModelSuffix "gpt-5" = "gpt-5-openai-compact" := by decide +kernel
  have hsuffix' : withCompactModelSuffix "gpt-5-mini" = "gpt-5-mini-openai-compact" := by
    decide +kernel
  refine ⟨?_, ?_⟩
  · simp [ModelInfo.tried, ModelInfo.attempt, ModelInfo.initChannelMeta, ModelInfo.finish,
      ModelInfo.modelMappedHelper, ModelInfo.mappingModelName, hclient, hstart, hmini, hsuffix,
      hsuffix', hfirst, hempty]
  · have hmapped : chase (ModelMap.redirects (AList.singleton
        "gemini-2.5-flash-preview-05-20-nothinking" "gemini-flash"))
        ["gemini-2.5-flash-preview-05-20-nothinking"]
        "gemini-2.5-flash-preview-05-20-nothinking" = .stop "gemini-flash" :=
      (chase_of_not_mem rfl (by decide)).trans (chase_of_none rfl)
    have hunmapped : chase (ModelMap.redirects (AList.singleton
        "gemini-2.5-flash-preview-05-20-nothinking" "gemini-flash"))
        ["gemini-2.5-flash-preview-05-20"] "gemini-2.5-flash-preview-05-20" =
        .stop "gemini-2.5-flash-preview-05-20" :=
      chase_of_none rfl
    have hrenames : (Handler.gemini true (some 0)).renames noThinkingPriced
        "gemini-2.5-flash-preview-05-20" = true := by decide +kernel
    have hkeeps : (Handler.gemini true (some 0)).renames noThinkingPriced
        "gemini-2.5-flash-preview-05-20-nothinking" = false := by decide +kernel
    have hname : "gemini-2.5-flash-preview-05-20" ++ noThinkingSuffix =
        "gemini-2.5-flash-preview-05-20-nothinking" := by decide +kernel
    simp [ModelInfo.tried, ModelInfo.attempt, ModelInfo.initChannelMeta, ModelInfo.finish,
      ModelInfo.modelMappedHelper, ModelInfo.mappingModelName, ModelInfo.renamed, clientModel,
      hempty, hmapped, hunmapped, hrenames, hkeeps, hname]

end NewApiPool.Relay
