import NewApiPool.Convert.Chat
import NewApiPool.Lib.GoText

/-!
# Thinking as content

A client may want the reasoning of a model within the content, between `<think>` and `</think>`.
`sendStreamData` sends the first reasoning with the opening marker, and a chunk with the closing
marker alone before the first content after it. In between and later, reasoning takes the place of
the content of its chunk.

So the content of a chunk that has both is not sent. If no chunk has both, all text is sent in
order, and the markers are right if there is content after the first reasoning
(`thinkToContent_iff`): nothing closes the marker of a stream that ends with its reasoning.
-/

namespace NewApiPool.Convert

structure ThinkingContentInfo where
  isFirstThinkingContent : Bool := true
  sendLastThinkingContent : Bool := false
  hasSentThinkingContent : Bool := false

def openingMarker : String := "<think>\n"

def closingMarker : String := "\n</think>\n"

/-- The choice with a text for its content, and no reasoning. -/
def Choice.withContent (choice : Choice) (s : String) : Choice :=
  { choice with
    delta := { choice.delta with content := some s, reasoningContent := none, reasoning := none } }

/-- The choice without reasoning. -/
def Choice.withoutReasoning (choice : Choice) : Choice :=
  { choice with delta := { choice.delta with reasoningContent := none, reasoning := none } }

def Choice.hasReasoning (choice : Choice) : Bool := choice.delta.getReasoningContent != ""

def Choice.hasContent (choice : Choice) : Bool := choice.delta.getContentString != ""

/-- What becomes of a choice where no marker is written into it. -/
def Choice.reasoningAsContent (choice : Choice) (hasText : Bool) : Choice :=
  if choice.hasReasoning then choice.withContent choice.delta.getReasoningContent
  else if hasText then choice
  else choice.withoutReasoning

/-- **`sendStreamData`** with thinking in the content: the chunks that are sent for one. The closing
marker is sent at the first choice, before anything is changed. -/
def sendStreamData (info : ThinkingContentInfo) (chunk : Chunk) :
    List Chunk × ThinkingContentInfo :=
  let hasThinkingContent := chunk.choices.any Choice.hasReasoning
  let hasContent := chunk.choices.any Choice.hasContent
  let thinkingContent :=
    String.join (chunk.choices.map fun choice => choice.delta.getReasoningContent)
  if info.isFirstThinkingContent ∧ hasThinkingContent then
    ([{ chunk with
        choices := chunk.choices.map fun choice =>
          choice.withContent (openingMarker ++ thinkingContent) }],
      { info with isFirstThinkingContent := false, hasSentThinkingContent := true })
  else if chunk.choices = [] then ([chunk], info)
  else
    let closes := hasContent ∧ info.sendLastThinkingContent = false ∧ info.hasSentThinkingContent
    ((if closes then
        [{ chunk with choices := chunk.choices.map fun choice => choice.withContent closingMarker }]
      else []) ++
      [{ chunk with
        choices := chunk.choices.map fun choice =>
          choice.reasoningAsContent (hasThinkingContent || hasContent) }],
      if closes then { info with sendLastThinkingContent := true } else info)

/-- One chunk after the other. -/
def sendStream (info : ThinkingContentInfo) : List Chunk → List Chunk
  | [] => []
  | chunk :: chunks =>
    (sendStreamData info chunk).1 ++ sendStream (sendStreamData info chunk).2 chunks

/-! ### What is sent for a delta -/

/-- A part of what is sent: a marker, or what came as reasoning or as content. -/
inductive Passage
  | opening
  | closing
  | reasoning (s : String)
  | content (s : String)
deriving DecidableEq

def Passage.render : Passage → String
  | .opening => openingMarker
  | .closing => closingMarker
  | .reasoning s => s
  | .content s => s

/-- The passage without the markers. -/
def Passage.text : Passage → String
  | .opening => ""
  | .closing => ""
  | .reasoning s => s
  | .content s => s

/-- The texts of passages, without the markers. -/
def texts (passages : List Passage) : String := String.join (passages.map Passage.text)

/-- **There is no opening marker**, or exactly one and exactly one closing marker behind it, with no
content in between. -/
def Balanced (passages : List Passage) : Prop :=
  .opening ∉ passages ∨ ∃ before thinking after,
    passages = before ++ .opening :: (thinking ++ .closing :: after) ∧
      (∀ p ∈ before ++ thinking ++ after, p ≠ .opening ∧ p ≠ .closing) ∧
      ∀ s, .content s ∉ thinking

/-- Where the stream is: before the first reasoning, behind it, or behind the closing marker. -/
inductive Phase
  | fresh
  | thinking
  | answering

namespace Phase

/-- The flags of `ThinkingContentInfo`. -/
def info : Phase → ThinkingContentInfo
  | fresh => ⟨true, false, false⟩
  | thinking => ⟨false, false, true⟩
  | answering => ⟨false, true, true⟩

/-- What is sent of a choice apart from the markers. -/
def plain (choice : Choice) : List Passage :=
  if choice.hasReasoning then [.reasoning choice.delta.getReasoningContent]
  else if choice.hasContent then [.content choice.delta.getContentString]
  else []

/-- The passages that are sent for a choice, and where the stream is then. -/
def send : Phase → Choice → List Passage × Phase
  | fresh, choice =>
    if choice.hasReasoning then
      ([.opening, .reasoning choice.delta.getReasoningContent], thinking)
    else (plain choice, fresh)
  | thinking, choice =>
    if choice.hasContent then (.closing :: plain choice, answering) else (plain choice, thinking)
  | answering, choice => (plain choice, answering)

def run (phase : Phase) : List Choice → List Passage
  | [] => []
  | choice :: choices => (phase.send choice).1 ++ (phase.send choice).2.run choices

end Phase

/-- The content of the chunks that are sent. -/
def contentOf (chunks : List Chunk) : String :=
  String.join ((chunks.flatMap Chunk.choices).map fun choice => choice.delta.getContentString)

section Send

variable {phase : Phase} {choice : Choice} {chunk : Chunk}

@[simp] theorem getContentString_withContent (choice : Choice) (s : String) :
    (choice.withContent s).delta.getContentString = s := rfl

theorem getContentString_reasoningAsContent (choice : Choice) (hasText : Bool) :
    (choice.reasoningAsContent hasText).delta.getContentString =
      String.join ((Phase.plain choice).map Passage.render) := by
  rw [Choice.reasoningAsContent, Phase.plain]
  by_cases hreasoning : choice.hasReasoning = true
  · rw [if_pos hreasoning, if_pos hreasoning]
    simp [Passage.render]
  · rw [if_neg hreasoning, if_neg hreasoning]
    have hkept : (if hasText then choice else choice.withoutReasoning).delta.getContentString =
        choice.delta.getContentString := by
      cases hasText <;> rfl
    rw [hkept]
    split_ifs with hcontent
    · simp [Passage.render]
    · simpa [Choice.hasContent] using hcontent

theorem contentOf_singleton (h : chunk.choices = [choice]) :
    contentOf [chunk] = choice.delta.getContentString := by
  simp [contentOf, h]

theorem contentOf_append (chunks chunks' : List Chunk) :
    contentOf (chunks ++ chunks') = contentOf chunks ++ contentOf chunks' := by
  simp [contentOf]

theorem sendStreamData_of_not_opens (info : ThinkingContentInfo) (h : chunk.choices = [choice])
    (hopens : ¬(info.isFirstThinkingContent = true ∧ choice.hasReasoning = true)) :
    contentOf (sendStreamData info chunk).1 =
        (if choice.hasContent ∧ info.sendLastThinkingContent = false ∧ info.hasSentThinkingContent
          then closingMarker else "") ++ String.join ((Phase.plain choice).map Passage.render) ∧
      (sendStreamData info chunk).2 =
        if choice.hasContent ∧ info.sendLastThinkingContent = false ∧ info.hasSentThinkingContent
        then { info with sendLastThinkingContent := true } else info := by
  have hreasoning : chunk.choices.any Choice.hasReasoning = choice.hasReasoning := by simp [h]
  have hcontent : chunk.choices.any Choice.hasContent = choice.hasContent := by simp [h]
  have hne : chunk.choices ≠ [] := by simp [h]
  simp only [sendStreamData, hreasoning, hcontent]
  rw [if_neg hopens, if_neg hne]
  refine ⟨?_, rfl⟩
  have hsent (f : Choice → Choice) :
      contentOf [{ chunk with choices := chunk.choices.map f }] =
        (f choice).delta.getContentString :=
    contentOf_singleton (by simp only [h, List.map_cons, List.map_nil])
  rw [contentOf_append, hsent, getContentString_reasoningAsContent]
  split_ifs
  · rw [hsent, getContentString_withContent]
  · rfl

/-- **A chunk of one choice** is sent as its passages. -/
theorem sendStreamData_eq (phase : Phase) (h : chunk.choices = [choice]) :
    contentOf (sendStreamData phase.info chunk).1 =
        String.join ((phase.send choice).1.map Passage.render) ∧
      (sendStreamData phase.info chunk).2 = (phase.send choice).2.info := by
  cases phase with
  | fresh =>
    by_cases hreasoning : choice.hasReasoning = true
    · have hany : chunk.choices.any Choice.hasReasoning = true := by simp [h, hreasoning]
      have hsend : Phase.fresh.send choice =
          ([.opening, .reasoning choice.delta.getReasoningContent], .thinking) := if_pos hreasoning
      rw [sendStreamData, hsend, if_pos ⟨rfl, hany⟩]
      refine ⟨?_, rfl⟩
      simp [contentOf, h, Passage.render]
    · have hsend : Phase.fresh.send choice = (Phase.plain choice, .fresh) := if_neg hreasoning
      obtain ⟨htext, hinfo⟩ := sendStreamData_of_not_opens Phase.fresh.info h
        fun hopens => hreasoning hopens.2
      rw [htext, hinfo, hsend]
      simp [Phase.info]
  | thinking =>
    obtain ⟨htext, hinfo⟩ := sendStreamData_of_not_opens Phase.thinking.info h
      fun hopens => Bool.false_ne_true hopens.1
    rw [htext, hinfo]
    cases hcontent : choice.hasContent <;> simp [Phase.send, hcontent, Phase.info, Passage.render]
  | answering =>
    obtain ⟨htext, hinfo⟩ := sendStreamData_of_not_opens Phase.answering.info h
      fun hopens => Bool.false_ne_true hopens.1
    rw [htext, hinfo]
    simp [Phase.send, Phase.info]

/-- **A stream** is sent as its passages. -/
theorem contentOf_sendStream (phase : Phase) {chunks : List Chunk}
    (h : ∀ chunk ∈ chunks, chunk.choices.length = 1) :
    contentOf (sendStream phase.info chunks) =
      String.join ((phase.run (chunks.flatMap Chunk.choices)).map Passage.render) := by
  induction chunks generalizing phase with
  | nil => rfl
  | cons chunk chunks ih =>
    obtain ⟨hchunk, hchunks⟩ := List.forall_mem_cons.1 h
    obtain ⟨choice, hchoice⟩ := List.length_eq_one_iff.1 hchunk
    obtain ⟨htext, hinfo⟩ := sendStreamData_eq phase hchoice
    rw [sendStream, contentOf_append, htext, hinfo, ih _ hchunks, List.flatMap_cons, hchoice,
      List.singleton_append, Phase.run, List.map_append, String.join_append]

end Send

/-! ### The text -/

theorem texts_plain (choice : Choice) :
    texts (Phase.plain choice) =
      if choice.hasReasoning then choice.delta.getReasoningContent
      else choice.delta.getContentString := by
  rw [Phase.plain]
  split_ifs with hreasoning hcontent
  · simp [texts, Passage.text]
  · simp [texts, Passage.text]
  · have hempty : choice.delta.getContentString = "" := by simpa [Choice.hasContent] using hcontent
    rw [hempty]
    rfl

theorem texts_append (passages passages' : List Passage) :
    texts (passages ++ passages') = texts passages ++ texts passages' := by
  simp [texts]

/-- The markers have no text: what is sent for a choice has the texts that it has when it is sent
plainly, in every phase. -/
theorem texts_send (phase : Phase) (choice : Choice) :
    texts (phase.send choice).1 = texts (Phase.plain choice) := by
  have hclosing (passages : List Passage) : texts (.closing :: passages) = texts passages := by
    simp [texts, Passage.text]
  cases phase with
  | fresh =>
    rw [Phase.send]
    split_ifs with hreasoning
    · rw [texts_plain, if_pos hreasoning]
      simp [texts, Passage.text]
    · rfl
  | thinking =>
    rw [Phase.send]
    split_ifs
    · exact hclosing _
    · rfl
  | answering => rfl

theorem texts_run (phase : Phase) (choices : List Choice) :
    texts (phase.run choices) =
      String.join (choices.map fun choice => texts (Phase.plain choice)) := by
  induction choices generalizing phase with
  | nil => rfl
  | cons choice choices ih =>
    rw [Phase.run, texts_append, texts_send, ih, List.map_cons, String.join_cons]

/-- **The text is complete** if and only if no choice has reasoning and content. -/
theorem texts_run_eq_iff (phase : Phase) (choices : List Choice) :
    texts (phase.run choices) =
        String.join (choices.map fun choice =>
          choice.delta.getReasoningContent ++ choice.delta.getContentString) ↔
      ∀ choice ∈ choices, ¬(choice.hasReasoning = true ∧ choice.hasContent = true) := by
  rw [texts_run]
  have hle : ∀ choice ∈ choices, (texts (Phase.plain choice)).length ≤
      (choice.delta.getReasoningContent ++ choice.delta.getContentString).length := by
    intro choice _
    rw [texts_plain, String.length_append]
    split_ifs <;> omega
  rw [GoText.join_map_eq_iff hle]
  refine forall₂_congr fun choice _ => ?_
  rw [texts_plain]
  by_cases hreasoning : choice.hasReasoning = true
  · rw [if_pos hreasoning, eq_comm, String.append_eq_left_iff]
    simp [hreasoning, Choice.hasContent]
  · rw [if_neg hreasoning]
    have hempty : choice.delta.getReasoningContent = "" := by
      simpa [Choice.hasReasoning] using hreasoning
    simp [hreasoning, hempty]

/-! ### The markers -/

/-- **There is no reasoning**, or content in a later choice than the first reasoning. -/
def Answered : List Choice → Prop
  | [] => True
  | choice :: choices =>
    if choice.hasReasoning then ∃ answer ∈ choices, answer.hasContent = true
    else Answered choices

instance Answered.decidable : (choices : List Choice) → Decidable (Answered choices)
  | [] => .isTrue trivial
  | choice :: choices =>
    have := decidable choices
    inferInstanceAs (Decidable (if choice.hasReasoning then
      ∃ answer ∈ choices, answer.hasContent = true else Answered choices))

/-- A passage that is no marker. -/
def Passage.IsText (passage : Passage) : Prop := passage ≠ .opening ∧ passage ≠ .closing

variable {choice : Choice}

theorem isText_of_mem_plain {passage : Passage}
    (h : passage ∈ Phase.plain choice) : passage.IsText := by
  rw [Phase.plain] at h
  split_ifs at h
  · rw [List.mem_singleton.1 h]
    exact ⟨nofun, nofun⟩
  · rw [List.mem_singleton.1 h]
    exact ⟨nofun, nofun⟩
  · exact absurd h List.not_mem_nil

variable {choices : List Choice}

theorem isText_of_mem_run_answering {passage : Passage}
    (h : passage ∈ Phase.answering.run choices) : passage.IsText := by
  induction choices with
  | nil => exact absurd h List.not_mem_nil
  | cons choice choices ih =>
    rw [Phase.run, List.mem_append] at h
    exact h.elim isText_of_mem_plain ih

/-- **Behind the opening marker** there is a closing marker if there is content, and no content
before it. -/
theorem run_thinking (choices : List Choice) :
    (∃ answer ∈ choices, answer.hasContent = true) ∧
        (∃ thinking after, Phase.thinking.run choices = thinking ++ .closing :: after ∧
          (∀ passage ∈ thinking ++ after, passage.IsText) ∧ ∀ s, .content s ∉ thinking) ∨
      (¬∃ answer ∈ choices, answer.hasContent = true) ∧
        ∀ passage ∈ Phase.thinking.run choices, passage.IsText := by
  induction choices with
  | nil => exact .inr ⟨by simp, nofun⟩
  | cons choice choices ih =>
    by_cases hcontent : choice.hasContent = true
    · have hsend : Phase.thinking.send choice = (.closing :: Phase.plain choice, .answering) :=
        if_pos hcontent
      refine .inl ⟨⟨choice, List.mem_cons_self, hcontent⟩, [],
        Phase.plain choice ++ Phase.answering.run choices, ?_, ?_, nofun⟩
      · rw [Phase.run, hsend]
        rfl
      · rintro passage h
        rw [List.nil_append, List.mem_append] at h
        exact h.elim isText_of_mem_plain isText_of_mem_run_answering
    · have hsend : Phase.thinking.send choice = (Phase.plain choice, .thinking) := if_neg hcontent
      have hplain : ∀ s, Passage.content s ∉ Phase.plain choice := by
        intro s
        rw [Phase.plain]
        split_ifs <;> simp
      have hexists : (∃ answer ∈ choice :: choices, answer.hasContent = true) ↔
          ∃ answer ∈ choices, answer.hasContent = true := by
        simp [hcontent]
      rw [hexists, Phase.run, hsend]
      rcases ih with ⟨hanswer, thinking, after, hrun, htext, hthinking⟩ | ⟨hanswer, htext⟩
      · refine .inl ⟨hanswer, Phase.plain choice ++ thinking, after, ?_, ?_, ?_⟩
        · rw [hrun, List.append_assoc]
        · rintro passage h
          rw [List.append_assoc, List.mem_append] at h
          exact h.elim isText_of_mem_plain (htext passage)
        · intro s h
          exact (List.mem_append.1 h).elim (hplain s) (hthinking s)
      · refine .inr ⟨hanswer, ?_⟩
        rintro passage h
        exact (List.mem_append.1 h).elim isText_of_mem_plain (htext passage)

theorem Balanced.append_left {passages passages' : List Passage}
    (htext : ∀ passage ∈ passages, passage.IsText) (h : Balanced passages') :
    Balanced (passages ++ passages') := by
  rcases h with hnone | ⟨before, thinking, after, rfl, hother, hthinking⟩
  · refine .inl fun hmem => ?_
    rcases List.mem_append.1 hmem with hmem | hmem
    · exact (htext _ hmem).1 rfl
    · exact hnone hmem
  · refine .inr ⟨passages ++ before, thinking, after, (List.append_assoc ..).symm, ?_, hthinking⟩
    rintro passage hmem
    rw [List.append_assoc, List.append_assoc, List.mem_append] at hmem
    exact hmem.elim (htext passage) fun hmem => hother passage (by rwa [List.append_assoc])

theorem run_fresh_of_hasReasoning (choices : List Choice) (h : choice.hasReasoning = true) :
    Phase.fresh.run (choice :: choices) =
      .opening :: .reasoning choice.delta.getReasoningContent :: Phase.thinking.run choices := by
  have hsend : Phase.fresh.send choice =
      ([.opening, .reasoning choice.delta.getReasoningContent], .thinking) := if_pos h
  rw [Phase.run, hsend]
  rfl

theorem run_fresh_of_not_hasReasoning (choices : List Choice) (h : ¬choice.hasReasoning = true) :
    Phase.fresh.run (choice :: choices) = Phase.plain choice ++ Phase.fresh.run choices := by
  have hsend : Phase.fresh.send choice = (Phase.plain choice, .fresh) := if_neg h
  rw [Phase.run, hsend]

theorem balanced_of_answered (h : Answered choices) :
    Balanced (Phase.fresh.run choices) := by
  induction choices with
  | nil => exact .inl List.not_mem_nil
  | cons choice choices ih =>
    rw [Answered] at h
    split_ifs at h with hreasoning
    · rw [run_fresh_of_hasReasoning choices hreasoning]
      rcases run_thinking choices with ⟨-, thinking, after, hrun, htext, hthinking⟩ | ⟨hnone, -⟩
      · refine .inr ⟨[], .reasoning choice.delta.getReasoningContent :: thinking, after, ?_, ?_, ?_⟩
        · rw [hrun]
          rfl
        · exact List.forall_mem_cons.2 ⟨⟨nofun, nofun⟩, htext⟩
        · intro s hmem
          exact (List.mem_cons.1 hmem).elim nofun (hthinking s)
      · exact absurd h hnone
    · rw [run_fresh_of_not_hasReasoning choices hreasoning]
      exact (ih h).append_left fun _ => isText_of_mem_plain

theorem unclosed_of_not_answered (h : ¬Answered choices) :
    .opening ∈ Phase.fresh.run choices ∧ .closing ∉ Phase.fresh.run choices := by
  induction choices with
  | nil => exact absurd trivial h
  | cons choice choices ih =>
    rw [Answered] at h
    split_ifs at h with hreasoning
    · rw [run_fresh_of_hasReasoning choices hreasoning]
      rcases run_thinking choices with ⟨hanswer, -⟩ | ⟨-, htext⟩
      · exact absurd hanswer h
      · refine ⟨List.mem_cons_self, fun hmem => ?_⟩
        have hmem' : Passage.closing ∈ Phase.thinking.run choices := by simpa using hmem
        exact (htext _ hmem').2 rfl
    · rw [run_fresh_of_not_hasReasoning choices hreasoning]
      obtain ⟨hopening, hclosing⟩ := ih h
      refine ⟨List.mem_append_right _ hopening, fun hmem => ?_⟩
      exact (List.mem_append.1 hmem).elim (fun hmem => (isText_of_mem_plain hmem).2 rfl) hclosing

/-- **The markers are balanced** if and only if the reasoning is answered. -/
theorem balanced_run_iff (choices : List Choice) :
    Balanced (Phase.fresh.run choices) ↔ Answered choices := by
  refine ⟨fun h => by_contra fun hunanswered => ?_, balanced_of_answered⟩
  obtain ⟨hopening, hclosing⟩ := unclosed_of_not_answered hunanswered
  rcases h with hnone | ⟨before, thinking, after, hrun, -⟩
  · exact hnone hopening
  · exact hclosing (by simp [hrun])

/-- **Thinking as content**: what is sent for chunks of one choice each are the passages. Their text
is all the reasoning and content in order, with balanced markers, if and only if no choice has both
and the reasoning is answered. -/
theorem thinkToContent_iff (chunks : List Chunk)
    (h : ∀ chunk ∈ chunks, chunk.choices.length = 1) :
    contentOf (sendStream {} chunks) =
        String.join ((Phase.fresh.run (chunks.flatMap Chunk.choices)).map Passage.render) ∧
      (texts (Phase.fresh.run (chunks.flatMap Chunk.choices)) =
            String.join ((chunks.flatMap Chunk.choices).map fun choice =>
              choice.delta.getReasoningContent ++ choice.delta.getContentString) ∧
          Balanced (Phase.fresh.run (chunks.flatMap Chunk.choices)) ↔
        (∀ choice ∈ chunks.flatMap Chunk.choices,
            ¬(choice.hasReasoning = true ∧ choice.hasContent = true)) ∧
          Answered (chunks.flatMap Chunk.choices)) :=
  ⟨contentOf_sendStream Phase.fresh h,
    and_congr (texts_run_eq_iff Phase.fresh _) (balanced_run_iff _)⟩

/-- A chunk of one choice. -/
def Chunk.ofTexts (reasoning content : Option String) : Chunk :=
  { choices := [{ delta := { content, reasoningContent := reasoning } }] }

theorem thinkToContent_sum :
    texts (Phase.fresh.run
        ([Chunk.ofTexts (some "2 + 2") none, Chunk.ofTexts none (some "4")].flatMap
          Chunk.choices)) = "2 + 24" :=
  ((thinkToContent_iff [Chunk.ofTexts (some "2 + 2") none, Chunk.ofTexts none (some "4")]
    (by decide)).2.2 (by decide)).1.trans (by decide)

/-- The content of a chunk with both is lost, and the marker is not closed. -/
theorem thinkToContent_both :
    contentOf (sendStream {} [Chunk.ofTexts (some "2 + 2") (some "4")]) = "<think>\n2 + 2" ∧
      ¬(texts (Phase.fresh.run (Chunk.ofTexts (some "2 + 2") (some "4")).choices) = "2 + 24" ∧
        Balanced (Phase.fresh.run (Chunk.ofTexts (some "2 + 2") (some "4")).choices)) :=
  ⟨by decide, fun h => absurd h.1 (by decide)⟩

end NewApiPool.Convert
