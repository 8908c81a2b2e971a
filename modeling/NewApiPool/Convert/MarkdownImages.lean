import Mathlib.Data.List.Forall2
import NewApiPool.Lib.Find

/-!
# Markdown images for Gemini

A text of a chat request may have images in it, as markdown with a data URL. The loop of the
converter takes the next one each time: the text before it is a part, the data is a part, and the
loop goes on behind it.

The loop looks for the opening of an image, for the start of a data URL anywhere behind it, and for
the next parenthesis. So an opening can be paired with the data URL of a later link, and then what
is between them is lost; so is the text behind the last image, which no step of the loop adds. The
text is whole in the parts if and only if it has no image, or consists of images with text before
each of them (`convertText_reproduces_iff`).
-/

namespace NewApiPool.Convert.MarkdownImages

/-- A part of a message for Gemini. -/
inductive RequestPart
  | text (text : String)
  | inlineData (mimeType data : String) (thoughtSignature : Option String)
deriving DecidableEq

/-- What the loop uses of its surroundings. -/
structure Decoder where
  /-- `DecodeBase64ImageData`: the type of the image is read from its data -/
  decodeBase64ImageData : String → Option (String × String)
  /-- `thoughtSignatureBypassValue`, if `shouldAttachThoughtSignature` -/
  thoughtSignature : Option String

def opening : List Char := ['!', '[']

def dataBracket : List Char := [']', '(', 'd', 'a', 't', 'a', ':']

/-- What one step of the loop takes from the text. -/
structure NextImage where
  textBefore : List Char
  dataUrl : List Char
  rest : List Char

/-- The three searches of a step. -/
def nextImage (text : List Char) : Option NextImage := do
  let startIdx ← Find.index opening text
  let bracketIdx ← (Find.index dataBracket (text.drop startIdx)).map (· + startIdx)
  let closeIdx ← (Find.index [')'] (text.drop (bracketIdx + 2))).map (· + (bracketIdx + 2))
  return {
    textBefore := text.take startIdx
    dataUrl := (text.take closeIdx).drop (bracketIdx + 2)
    rest := text.drop (closeIdx + 1) }

namespace Decoder

variable (env : Decoder)

/-- `DecodeBase64FileData`: the type and the data of a data URL. -/
def decodeBase64FileData (base64String : String) : Option (String × String) :=
  let ofImage := fun image =>
    (env.decodeBase64ImageData image).map fun decoded => ("image/" ++ decoded.1, decoded.2)
  match Find.index [','] base64String.toList with
  | none => ofImage base64String
  | some comma =>
    let data := String.ofList (base64String.toList.drop (comma + 1))
    let mimeType := base64String.toList.take comma
    match Find.index [';'] mimeType with
    | none => ofImage data
    | some semicolon =>
      match Find.index [':'] (mimeType.take semicolon) with
      | none => ofImage data
      | some colon => some (String.ofList ((mimeType.take semicolon).drop (colon + 1)), data)

/-- The loop, with at most that many steps; `none` where an image is not decoded. -/
def imageParts : ℕ → List Char → Option (List RequestPart)
  | 0, _ => some []
  | steps + 1, text =>
    match nextImage text with
    | none => some []
    | some image => do
      let (format, base64String) ← env.decodeBase64FileData (String.ofList image.dataUrl)
      let parts ← imageParts steps image.rest
      return (if image.textBefore ≠ [] then [.text (String.ofList image.textBefore)] else []) ++
        .inlineData format base64String env.thoughtSignature :: parts

/-- The parts of a text. Each image takes letters from it, so that there are fewer than letters. -/
def convertText (text : String) : Option (List RequestPart) :=
  if text = "" then some []
  else if (nextImage text.toList).isSome then env.imageParts text.length text.toList
  else some [.text text]

end Decoder

/-! ### Images -/

/-- A label of an image: it has no other opening in it, and does not end before its end. -/
def IsLabel (label : List Char) : Prop := ¬opening <:+: label ∧ ¬[']', '('] <:+: label
deriving Decidable

/-- A data URL within parentheses. -/
def IsDataUrl (url : List Char) : Prop := "data:".toList <+: url ∧ ')' ∉ url
deriving Decidable

/-- The markdown of an image. -/
def markdown (label url : List Char) : List Char :=
  opening ++ (label ++ ([']', '('] ++ (url ++ [')'])))

/-- An image, with the text before it. -/
structure Segment where
  textBefore : List Char
  label : List Char
  dataUrl : List Char
  noOpening : ¬opening <:+: textBefore
  isLabel : IsLabel label
  isDataUrl : IsDataUrl dataUrl

def Segment.toText (segment : Segment) : List Char :=
  segment.textBefore ++ markdown segment.label segment.dataUrl

/-- **The text consists of images**, with text before each of them. -/
def InImages (text : List Char) : Prop :=
  ∃ segments : List Segment, text = segments.flatMap Segment.toText

/-- Each data URL of the text is decoded. -/
def Decoder.Decodes (env : Decoder) (text : List Char) : Prop :=
  ∀ url, IsDataUrl url → [']', '('] ++ (url ++ [')']) <:+: text →
    (env.decodeBase64FileData (String.ofList url)).isSome

/-- The text is what a part was taken from: of an image, its markdown. -/
def Decoder.IsSource (env : Decoder) (source : List Char) : RequestPart → Prop
  | .text text => source = text.toList
  | .inlineData mimeType data _ => ∃ label url, IsLabel label ∧ IsDataUrl url ∧
      env.decodeBase64FileData (String.ofList url) = some (mimeType, data) ∧
      source = markdown label url

/-- **The parts reproduce the text**, with each image rendered back. -/
def Decoder.Reproduces (env : Decoder) (parts : List RequestPart) (text : List Char) : Prop :=
  ∃ sources, List.Forall₂ env.IsSource sources parts ∧ sources.flatten = text

/-! ### One step -/

section Step

variable {textBefore between url rest : List Char}

/-- **What a step takes**, if the searches find the three places. -/
theorem nextImage_of_index (hstart : Find.index opening
      (textBefore ++ (opening ++ (between ++ (']' :: '(' :: (url ++ ')' :: rest))))) =
        some textBefore.length)
    (hbracket : Find.index dataBracket
      (opening ++ (between ++ (']' :: '(' :: (url ++ ')' :: rest)))) =
        some (opening ++ between).length)
    (hclose : Find.index [')'] (url ++ ')' :: rest) = some url.length) :
    nextImage (textBefore ++ (opening ++ (between ++ (']' :: '(' :: (url ++ ')' :: rest))))) =
      some ⟨textBefore, url, rest⟩ := by
  -- what is before the data URL
  have hcut : textBefore ++ (opening ++ (between ++ (']' :: '(' :: (url ++ ')' :: rest)))) =
      (textBefore ++ opening ++ between ++ [']', '(']) ++ (url ++ ([')'] ++ rest)) := by
    simp
  have hlength : (opening ++ between).length + textBefore.length + 2 =
      (textBefore ++ opening ++ between ++ [']', '(']).length := by
    simp only [List.length_append, List.length_cons, List.length_nil]
    omega
  have hdrop : (textBefore ++ (opening ++ (between ++ (']' :: '(' :: (url ++ ')' :: rest))))).drop
      textBefore.length = opening ++ (between ++ (']' :: '(' :: (url ++ ')' :: rest))) :=
    List.drop_left
  simp only [nextImage, hstart, hdrop, hbracket, Option.map_some, Option.bind_eq_bind,
    Option.bind_some, hlength]
  rw [hcut, List.drop_left, List.singleton_append, hclose]
  have htake : ((textBefore ++ opening ++ between ++ [']', '(']) ++ (url ++ ')' :: rest)).take
      (url.length + (textBefore ++ opening ++ between ++ [']', '(']).length) =
        (textBefore ++ opening ++ between ++ [']', '(']) ++ url := by
    rw [← List.append_assoc, Nat.add_comm, ← List.length_append, List.take_left]
  have hbefore : ((textBefore ++ opening ++ between ++ [']', '(']) ++ (url ++ ')' :: rest)).take
      textBefore.length = textBefore := by
    simp only [List.append_assoc, List.take_left]
  have hrest : ((textBefore ++ opening ++ between ++ [']', '(']) ++ (url ++ ')' :: rest)).drop
      (url.length + (textBefore ++ opening ++ between ++ [']', '(']).length + 1) = rest := by
    have hbehind : (textBefore ++ opening ++ between ++ [']', '(']) ++ (url ++ ')' :: rest) =
        ((textBefore ++ opening ++ between ++ [']', '(']) ++ url ++ [')']) ++ rest := by
      simp
    rw [hbehind]
    refine List.drop_left' ?_
    simp only [List.length_append, List.length_cons, List.length_nil]
    omega
  simp only [Option.map_some, Option.bind_some, htake, hbefore, hrest, List.drop_left]
  rfl

theorem nextImage_segment (segment : Segment) (rest : List Char) :
    nextImage (segment.toText ++ rest) = some ⟨segment.textBefore, segment.dataUrl, rest⟩ := by
  obtain ⟨textBefore, label, dataUrl, hopening, ⟨-, hend⟩, ⟨⟨payload, rfl⟩, hclose⟩⟩ := segment
  have htext : Segment.toText ⟨textBefore, label, "data:".toList ++ payload, hopening, ⟨‹_›, hend⟩,
      ⟨⟨payload, rfl⟩, hclose⟩⟩ ++ rest = textBefore ++ (opening ++ (label ++
        (']' :: '(' :: (("data:".toList ++ payload) ++ ')' :: rest)))) := by
    simp [Segment.toText, markdown]
  rw [htext]
  refine nextImage_of_index (Find.index_append (by decide) [] _ hopening) ?_
    (Find.index_singleton rest hclose)
  have hlabel : ¬[']', '('] <:+: opening ++ label := by
    rintro hoccurs
    rcases List.infix_cons_iff.1 hoccurs with hstarts | hoccurs
    · exact absurd (List.cons_prefix_cons.1 hstarts).1 (by decide)
    rcases List.infix_cons_iff.1 hoccurs with hstarts | hoccurs
    · exact absurd (List.cons_prefix_cons.1 hstarts).1 (by decide)
    · exact hend hoccurs
  exact Find.index_append (by decide) ['d', 'a', 't', 'a', ':'] _ hlabel

/-- **What a step takes**: some text up to the data URL, the data URL, and the rest. -/
theorem exists_of_nextImage {text : List Char} {image : NextImage}
    (h : nextImage text = some image) :
    ∃ between, text = image.textBefore ++ (opening ++ (between ++
        (']' :: '(' :: (image.dataUrl ++ ')' :: image.rest)))) ∧
      ¬opening <:+: image.textBefore ∧ IsDataUrl image.dataUrl := by
  have hsteps := h
  simp only [nextImage, Option.bind_eq_bind, Option.bind_eq_some_iff, Option.map_eq_some_iff] at h
  obtain ⟨startIdx, hstart, bracketIdx, ⟨i, hbracket, rfl⟩, closeIdx, ⟨j, hclose, rfl⟩, -⟩ := h
  obtain ⟨textBefore, afterStart, rfl, rfl, hopening⟩ :=
    Find.exists_of_index (by decide : opening ≠ []) hstart
  rw [List.drop_left] at hbracket
  obtain ⟨upToData, afterBracket, hdata, rfl, -⟩ :=
    Find.exists_of_index (by decide : dataBracket ≠ []) hbracket
  obtain ⟨between, rfl, rfl⟩ : ∃ between, upToData = opening ++ between ∧
      afterStart = between ++ (dataBracket ++ afterBracket) :=
    Find.exists_of_append_eq_append_cons (by decide) hdata
  have hdrop : (textBefore ++ (opening ++ (between ++ (dataBracket ++ afterBracket)))).drop
      ((opening ++ between).length + textBefore.length + 2) = "data:".toList ++ afterBracket := by
    have hcut : textBefore ++ (opening ++ (between ++ (dataBracket ++ afterBracket))) =
        (textBefore ++ opening ++ between ++ [']', '(']) ++ ("data:".toList ++ afterBracket) := by
      simp [dataBracket]
    rw [hcut]
    refine List.drop_left' ?_
    simp only [List.length_append, List.length_cons, List.length_nil]
    omega
  rw [hdrop] at hclose
  obtain ⟨dataUrl, rest, hurl, rfl, hnoclose⟩ :=
    Find.exists_of_index (List.cons_ne_nil _ _) hclose
  have hmem : ')' ∉ dataUrl := fun hmem => hnoclose ((List.singleton_infix_iff _ _).2 hmem)
  obtain ⟨payload, rfl, rfl⟩ : ∃ payload, dataUrl = "data:".toList ++ payload ∧
      afterBracket = payload ++ ')' :: rest :=
    Find.exists_of_append_eq_append_cons (by decide) hurl
  have htext : textBefore ++ (opening ++ (between ++ (dataBracket ++ (payload ++ ')' :: rest)))) =
      textBefore ++ (opening ++ (between ++ (']' :: '(' ::
        (("data:".toList ++ payload) ++ ')' :: rest)))) := by
    simp [dataBracket]
  rw [htext] at hsteps hstart ⊢
  obtain rfl := Option.some.inj (hsteps.symm.trans
    (nextImage_of_index hstart hbracket (Find.index_singleton rest hmem)))
  exact ⟨between, rfl, hopening, ⟨payload, rfl⟩, hmem⟩

end Step

/-! ### The loop -/

namespace Decoder

variable {env : Decoder} {text : List Char}

/-- The parts that a step adds. -/
def stepParts (env : Decoder) (image : NextImage) (decoded : String × String) :
    List RequestPart :=
  (if image.textBefore ≠ [] then [.text (String.ofList image.textBefore)] else []) ++
    [.inlineData decoded.1 decoded.2 env.thoughtSignature]

theorem imageParts_of_none (steps : ℕ) (h : nextImage text = none) :
    env.imageParts steps text = some [] := by
  cases steps with
  | zero => rfl
  | succ steps => rw [imageParts, h]

variable {image : NextImage}

theorem imageParts_succ (steps : ℕ) (h : nextImage text = some image) :
    env.imageParts (steps + 1) text =
      (env.decodeBase64FileData (String.ofList image.dataUrl)).bind fun decoded =>
        (env.imageParts steps image.rest).map (env.stepParts image decoded ++ ·) := by
  rw [imageParts, h]
  simp only [Option.bind_eq_bind, Option.map_eq_bind]
  refine Option.bind_congr fun decoded _ => Option.bind_congr fun parts _ => ?_
  simp [stepParts]

theorem Decodes.of_suffix {rest : List Char} (h : env.Decodes text) (hsuffix : rest <:+ text) :
    env.Decodes rest :=
  fun url hurl hoccurs => h url hurl (hoccurs.trans hsuffix.isInfix)

/-- A step decodes a data URL of the text, and goes on with a shorter text. -/
theorem Decodes.step (h : env.Decodes text) (hnext : nextImage text = some image) :
    (∃ decoded, env.decodeBase64FileData (String.ofList image.dataUrl) = some decoded) ∧
      env.Decodes image.rest ∧ image.rest.length < text.length := by
  obtain ⟨between, htext, -, hurl⟩ := exists_of_nextImage hnext
  refine ⟨Option.isSome_iff_exists.1 (h _ hurl ?_), h.of_suffix ?_, ?_⟩
  · exact ⟨image.textBefore ++ (opening ++ between), image.rest, by simp [htext]⟩
  · exact ⟨image.textBefore ++ (opening ++ (between ++ (']' :: '(' :: (image.dataUrl ++ [')'])))),
      by simp [htext]⟩
  · rw [htext]
    simp only [List.length_append, List.length_cons]
    omega

/-- **The loop does not fail** if each data URL is decoded. -/
theorem exists_imageParts (steps : ℕ) (h : env.Decodes text) :
    ∃ parts, env.imageParts steps text = some parts := by
  induction steps generalizing text with
  | zero => exact ⟨[], rfl⟩
  | succ steps ih =>
    cases hnext : nextImage text with
    | none => exact ⟨[], imageParts_of_none _ hnext⟩
    | some image =>
      obtain ⟨⟨decoded, hdecoded⟩, hrest, -⟩ := h.step hnext
      obtain ⟨parts, hparts⟩ := ih hrest
      exact ⟨env.stepParts image decoded ++ parts, by
        rw [imageParts_succ steps hnext, hdecoded, Option.bind_some, hparts, Option.map_some]⟩

/-! ### What the parts reproduce -/

theorem exists_segment {decoded : String × String} {sources : List (List Char)}
    (hopening : ¬opening <:+: image.textBefore)
    (h : List.Forall₂ env.IsSource sources (env.stepParts image decoded)) :
    ∃ segment : Segment, sources.flatten = segment.toText := by
  rw [stepParts] at h
  split_ifs at h with hempty
  · obtain ⟨_, _, rfl, ⟨_, _, ⟨label, url, hlabel, hurl, -, rfl⟩, hnil, rfl⟩, rfl⟩ := by
      simpa only [List.singleton_append, List.forall₂_cons_right_iff] using h
    obtain rfl := List.forall₂_nil_right_iff.1 hnil
    exact ⟨⟨image.textBefore, label, url, hopening, hlabel, hurl⟩, by simp [Segment.toText]⟩
  · obtain ⟨_, _, ⟨label, url, hlabel, hurl, -, rfl⟩, hnil, rfl⟩ := by
      simpa only [List.nil_append, List.forall₂_cons_right_iff] using h
    obtain rfl := List.forall₂_nil_right_iff.1 hnil
    exact ⟨⟨image.textBefore, label, url, hopening, hlabel, hurl⟩, by
      simp [Segment.toText, not_not.1 hempty]⟩

variable {parts : List RequestPart}

/-- **What the parts of the loop reproduce** consists of images. -/
theorem inImages_of_imageParts {steps : ℕ} {sources : List (List Char)}
    (hparts : env.imageParts steps text = some parts)
    (h : List.Forall₂ env.IsSource sources parts) : InImages sources.flatten := by
  induction steps generalizing text parts sources with
  | zero =>
    obtain rfl := Option.some.inj hparts
    obtain rfl := List.forall₂_nil_right_iff.1 h
    exact ⟨[], rfl⟩
  | succ steps ih =>
    cases hnext : nextImage text with
    | none =>
      obtain rfl := Option.some.inj ((imageParts_of_none _ hnext).symm.trans hparts)
      obtain rfl := List.forall₂_nil_right_iff.1 h
      exact ⟨[], rfl⟩
    | some image =>
      rw [imageParts_succ steps hnext, Option.bind_eq_some_iff] at hparts
      obtain ⟨decoded, -, hparts⟩ := hparts
      obtain ⟨rest, hrest, rfl⟩ := Option.map_eq_some_iff.1 hparts
      obtain ⟨-, -, hopening, -⟩ := exists_of_nextImage hnext
      obtain ⟨segment, hsegment⟩ := exists_segment hopening (List.forall₂_take_append _ _ _ h)
      obtain ⟨segments, hsegments⟩ := ih hrest (List.forall₂_drop_append _ _ _ h)
      refine ⟨segment :: segments, ?_⟩
      rw [List.flatMap_cons, ← hsegment, ← hsegments, ← List.flatten_append,
        List.take_append_drop]

theorem reproduces_stepParts (segment : Segment) {rest : List Char} {decoded : String × String}
    (hdecoded : env.decodeBase64FileData (String.ofList segment.dataUrl) = some decoded) :
    env.Reproduces (env.stepParts ⟨segment.textBefore, segment.dataUrl, rest⟩ decoded)
      segment.toText := by
  have himage : env.IsSource (markdown segment.label segment.dataUrl)
      (.inlineData decoded.1 decoded.2 env.thoughtSignature) :=
    ⟨segment.label, segment.dataUrl, segment.isLabel, segment.isDataUrl, hdecoded, rfl⟩
  rw [stepParts]
  split_ifs with hempty
  · refine ⟨[segment.textBefore, markdown segment.label segment.dataUrl],
      .cons (String.toList_ofList).symm (.cons himage .nil), ?_⟩
    simp [Segment.toText]
  · refine ⟨[markdown segment.label segment.dataUrl], .cons himage .nil, ?_⟩
    have hnil : segment.textBefore = [] := not_not.1 hempty
    simp [Segment.toText, hnil]

theorem Reproduces.append {parts' : List RequestPart} {text' : List Char}
    (h : env.Reproduces parts text) (h' : env.Reproduces parts' text') :
    env.Reproduces (parts ++ parts') (text ++ text') := by
  obtain ⟨sources, hsources, rfl⟩ := h
  obtain ⟨sources', hsources', rfl⟩ := h'
  exact ⟨sources ++ sources', List.rel_append hsources hsources', List.flatten_append⟩

/-- **Images** are reproduced: of a text in segments whose images can be decoded, the parts show the
same, in the same order. -/
theorem reproduces_of_segments {segments : List Segment} {steps : ℕ}
    (hdecodes : env.Decodes (segments.flatMap Segment.toText))
    (hsteps : (segments.flatMap Segment.toText).length ≤ steps)
    (hparts : env.imageParts steps (segments.flatMap Segment.toText) = some parts) :
    env.Reproduces parts (segments.flatMap Segment.toText) := by
  induction segments generalizing steps parts with
  | nil =>
    obtain rfl := Option.some.inj ((imageParts_of_none steps rfl).symm.trans hparts)
    exact ⟨[], .nil, rfl⟩
  | cons segment segments ih =>
    rw [List.flatMap_cons] at hdecodes hsteps hparts ⊢
    have hnext := nextImage_segment segment (segments.flatMap Segment.toText)
    obtain ⟨-, hrest, hshorter⟩ := hdecodes.step hnext
    obtain ⟨steps, rfl⟩ := Nat.exists_eq_add_one_of_ne_zero (by omega : steps ≠ 0)
    rw [imageParts_succ steps hnext, Option.bind_eq_some_iff] at hparts
    obtain ⟨decoded, hdecoded, hparts⟩ := hparts
    obtain ⟨restParts, hrestParts, rfl⟩ := Option.map_eq_some_iff.1 hparts
    exact (reproduces_stepParts segment hdecoded).append
      (ih hrest (Nat.le_of_lt_succ (hshorter.trans_le hsteps)) hrestParts)

/-- **The parts of a text** whose data URLs are decoded reproduce it if and only if it has no image
or consists of images with text before each of them. -/
theorem convertText_reproduces_iff (env : Decoder) (text : String) (h : env.Decodes text.toList) :
    ∃ parts, env.convertText text = some parts ∧
      (env.Reproduces parts text.toList ↔
        nextImage text.toList = none ∨ InImages text.toList) := by
  rw [convertText]
  split_ifs with hempty himage
  · subst hempty
    exact ⟨[], rfl, iff_of_true ⟨[], .nil, rfl⟩ (.inl rfl)⟩
  · obtain ⟨parts, hparts⟩ := exists_imageParts text.length h
    have hsome : nextImage text.toList ≠ none := Option.isSome_iff_ne_none.1 himage
    refine ⟨parts, hparts, fun ⟨sources, hsources, htext⟩ => .inr ?_, fun hcond => ?_⟩
    · rw [← htext]
      exact inImages_of_imageParts hparts hsources
    · obtain ⟨segments, hsegments⟩ := hcond.resolve_left hsome
      rw [hsegments] at h hparts ⊢
      exact reproduces_of_segments h (by rw [← hsegments, String.length_toList]) hparts
  · refine ⟨[.text text], rfl, iff_of_true ⟨[text.toList], .cons rfl .nil, by simp⟩ (.inl ?_)⟩
    exact Option.not_isSome_iff_eq_none.1 himage

/-- A decoder for which all data is an image. -/
def trusting : Decoder := ⟨fun data => some ("png", data), none⟩

theorem trusting_decodes (text : List Char) : trusting.Decodes text := by
  rintro url - -
  simp only [decodeBase64FileData]
  split
  · rfl
  · split
    · rfl
    · split <;> rfl

theorem convertText_reproduces_cat :
    ∃ parts, trusting.convertText "My ![cat](data:image/png;base64,QQ==)" = some parts ∧
      trusting.Reproduces parts "My ![cat](data:image/png;base64,QQ==)".toList := by
  obtain ⟨parts, hparts, hiff⟩ := convertText_reproduces_iff trusting
    "My ![cat](data:image/png;base64,QQ==)" (trusting_decodes _)
  refine ⟨parts, hparts, hiff.2 (.inr ⟨[⟨"My ".toList, "cat".toList,
    "data:image/png;base64,QQ==".toList, by decide, by decide, by decide⟩], by decide⟩)⟩

/-- The text behind the last image is lost. -/
theorem convertText_loses_question :
    trusting.convertText "![cat](data:image/png;base64,QQ==) Who?" =
        some [.inlineData "image/png" "QQ==" none] ∧
      ¬trusting.Reproduces [.inlineData "image/png" "QQ==" none]
        "![cat](data:image/png;base64,QQ==) Who?".toList := by
  refine ⟨by decide, ?_⟩
  rintro ⟨sources, hsources, htext⟩
  obtain ⟨_, _, ⟨label, url, -, -, -, rfl⟩, hnil, rfl⟩ := List.forall₂_cons_right_iff.1 hsources
  obtain rfl := List.forall₂_nil_right_iff.1 hnil
  -- the source ends with the parenthesis
  have hlast := congrArg List.getLast? htext
  rw [List.flatten_singleton, markdown, ← List.append_assoc, ← List.append_assoc,
    ← List.append_assoc, List.getLast?_concat] at hlast
  exact absurd hlast (by decide)

end Decoder

end NewApiPool.Convert.MarkdownImages
