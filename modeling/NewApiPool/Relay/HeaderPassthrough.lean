import NewApiPool.Lib.LastWins
import NewApiPool.Relay.HeaderOverride

/-!
# Headers that rules pass on

A key of a header override is the name of a header, or a rule: `*`, or an expression for the names
of headers that are passed on from the client. The override is a map, and so are the headers, and a
map is gone over in any order: by `sanitizeHeaderOverrideMap`, by the loop over the rules, by that
over the headers of the client and by that over the other keys.

The key of a rule is put in lower case before its expression is compiled, and that is matched with
the names as they are. `Follows` says that rules are followed as they are configured, and `Sound`
when they are. The headers that the rules pass on are the same in every order (`rules_cases`).
-/

namespace NewApiPool.Relay.HeaderPassthrough

open GoText LastWins

variable {B α : Type} (go : Libs B) (sprint : α → String)

/-! ### Orders -/

/-- The orders in which the maps are gone over. -/
structure Orders (α : Type) where
  source : List ((_ : String) × α)
  rules : List ((_ : String) × String)
  names : List String
  explicit : List ((_ : String) × String)

/-- The override after `sanitizeHeaderOverrideMap`, for an order of its entries. -/
def sanitized (source : List ((_ : String) × α)) : GoMap String :=
  source.foldl (sanitizeEntry go sprint) ∅

/-- The orders are those of the maps there are. -/
structure Orders.Of (o : Orders α) (source : GoMap α) (request : ClientRequest) : Prop where
  source : o.source.Perm source.entries
  rules : o.rules.Perm (sanitized go sprint o.source).entries
  names : o.names.Perm request.headerNames
  explicit : o.explicit.Perm (sanitized go sprint o.source).entries

/-- The expression of a pattern. -/
def compilePattern (pattern : String) : Except String (String → Bool) :=
  if pattern = "" then .error "header passthrough regex pattern is empty"
  else
    match go.compile pattern with
    | some re => .ok re
    | none => .error "error parsing regexp"

/-- The expressions of the rules among keys. -/
def passthroughRegexOf (keys : List String) : Except String (List (String → Bool)) :=
  (keys.filterMap fun key => passthroughPattern (trimSpace (go.toLower key))).mapM
    (compilePattern go)

/-- **`processHeaderOverride`**, with the orders in which it goes over the maps. -/
def processHeaderOverrideIn (request : ClientRequest) (apiKey : String) (o : Orders α) :
    Except String (GoMap String) := do
  let keys := o.rules.map Sigma.fst
  let passAll := !request.isChannelTest && keys.any fun key => trimSpace (go.toLower key) = "*"
  let regex ← if request.isChannelTest then pure [] else passthroughRegexOf go keys
  let passed :=
    if passAll || !regex.isEmpty then
      passedHeaders go { request with headerNames := o.names } passAll regex
    else ∅
  o.explicit.foldlM (sendEntry go request apiKey) passed

/-- The orders of the maps as they are given. -/
def plainOrders (source : GoMap α) (request : ClientRequest) : Orders α where
  source := source.entries
  rules := (sanitized go sprint source.entries).entries
  names := request.headerNames
  explicit := (sanitized go sprint source.entries).entries

/-- In these orders it is `processHeaderOverride`, for the map that is in force. -/
theorem processHeaderOverride_eq (info : RelayInfo) (source : GoMap α)
    (h : getEffectiveHeaderOverride go info = sanitizeHeaderOverrideMap go sprint source) :
    processHeaderOverride go info =
      processHeaderOverrideIn go info.request ((info.channelMeta.map ChannelMeta.apiKey).getD "")
        (plainOrders go sprint source info.request) := by
  rw [processHeaderOverride, processHeaderOverrideIn, h]
  rfl

/-! ### What the rules say -/

/-- The pattern of a rule as it is configured. -/
def configuredPattern (key : String) : Option String :=
  let key := trimSpace key
  if startsWith (go.toLower key) "re:" then some (trimSpace (String.ofList (key.toList.drop 3)))
  else if startsWith (go.toLower key) "regex:" then
    some (trimSpace (String.ofList (key.toList.drop 6)))
  else none

/-- The pattern of a rule after its key is put in lower case. -/
def loweredPattern (key : String) : Option String :=
  passthroughPattern (normalizeHeaderContextKey go key)

/-- A pattern that is empty or cannot be compiled. -/
def Invalid (pattern : String) : Prop := pattern = "" ∨ go.compile pattern = none

/-- Some pattern is invalid. -/
def SomeInvalid (patternOf : String → Option String) (source : GoMap α) (request : ClientRequest) :
    Prop :=
  request.isChannelTest = false ∧ ∃ key ∈ source.keys, ∃ pattern ∈ patternOf key,
    Invalid go pattern

/-- A rule of the override lets the names of all headers pass. -/
def PassesAll (source : GoMap α) (request : ClientRequest) : Prop :=
  request.isChannelTest = false ∧ ∃ key ∈ source.keys, normalizeHeaderContextKey go key = "*"

/-- A name matches a pattern in some letter case. -/
def MatchesAsConfigured (source : GoMap α) (request : ClientRequest) (name : String) : Prop :=
  request.isChannelTest = false ∧ ∃ key ∈ source.keys, ∃ pattern ∈ configuredPattern go key,
    ∃ re ∈ go.compile pattern, ∃ variant, go.toLower variant = go.toLower name ∧ re variant = true

/-- A name matches a pattern in lower case. -/
def MatchesLowered (source : GoMap α) (request : ClientRequest) (name : String) : Prop :=
  request.isChannelTest = false ∧ ∃ key ∈ source.keys, ∃ pattern ∈ loweredPattern go key,
    ∃ re ∈ go.compile pattern, re name = true

/-- A header of the client that is not empty and not on the list of those that are skipped. -/
def MayForward (request : ClientRequest) (name : String) : Prop :=
  name ∈ request.headerNames ∧ shouldSkipPassthroughHeader go name = false ∧
    trimSpace (request.headerGet name) ≠ ""

/-- A header of the client is passed on under a key. -/
def Forwards (passes : String → Prop) (request : ClientRequest) (key value : String) : Prop :=
  ∃ name, MayForward go request name ∧ passes name ∧ go.toLower (trimSpace name) = key ∧
    trimSpace (request.headerGet name) = value

/-- The headers that belong to one connection, and those with credentials: the cookies, and what
`TokenAuth` reads. -/
def guardedNames : List String :=
  ["connection", "keep-alive", "proxy-authenticate", "proxy-authorization", "te", "trailer",
    "transfer-encoding", "upgrade", "cookie", "authorization", "x-api-key", "x-goog-api-key",
    "mj-api-secret", "sec-websocket-protocol"]

/-! ### What the other keys say -/

/-- What a key with a value comes to: a value, or nothing, or an error (`none`). -/
def resolve (request : ClientRequest) (apiKey key value : String) : Option (Option String) :=
  if isHeaderPassthroughRuleKey go key ∨ key = "" ∨ (request.isChannelTest ∧
      startsWith (trimSpace value) clientHeaderPlaceholderPrefix) then some none
  else (applyHeaderOverridePlaceholders value request apiKey).toOption

/-- The value that an explicit override has for a header. -/
def explicitValue (request : ClientRequest) (apiKey : String) (o : Orders α) (key : String) :
    Option String :=
  ((sanitized go sprint o.source).lookup key).bind fun value =>
    (resolve go request apiKey key value).join

/-- There is nothing to be sent: a pattern is invalid as it is configured, or an explicit override
cannot be resolved. -/
def Refuses (source : GoMap α) (request : ClientRequest) (apiKey : String) (o : Orders α) : Prop :=
  SomeInvalid go (configuredPattern go) source request ∨
    ∃ key value, (sanitized go sprint o.source).lookup key = some value ∧
      resolve go request apiKey key value = none

/-- The headers that are sent, or none in an error. -/
def outcome (result : Except String (GoMap String)) : Option (String → Option String) :=
  result.toOption.map fun headers key => headers.lookup key

/-- **Header passthrough follows its rules**: explicit overrides win, other headers are those that
the rules pass as they are configured, guarded headers are passed by no rule, and the orders of the
maps make no difference. -/
structure Follows (source : GoMap α) (request : ClientRequest) (apiKey : String) : Prop where
  error : ∀ o : Orders α, o.Of go sprint source request →
    ((∃ message, processHeaderOverrideIn go request apiKey o = .error message) ↔
      Refuses go sprint source request apiKey o)
  sent : ∀ o : Orders α, o.Of go sprint source request → ∀ headers,
    processHeaderOverrideIn go request apiKey o = .ok headers → ∀ key value,
      (headers.lookup key = some value ↔
        explicitValue go sprint request apiKey o key = some value ∨
          explicitValue go sprint request apiKey o key = none ∧
            Forwards go (fun name => PassesAll go source request ∨
              MatchesAsConfigured go source request name) request key value)
  guarded : ∀ o : Orders α, o.Of go sprint source request → ∀ headers,
    processHeaderOverrideIn go request apiKey o = .ok headers → ∀ key ∈ guardedNames,
      headers.lookup key = explicitValue go sprint request apiKey o key
  same : ∀ o o' : Orders α, o.Of go sprint source request → o'.Of go sprint source request →
    outcome (processHeaderOverrideIn go request apiKey o) =
      outcome (processHeaderOverrideIn go request apiKey o')

/-! ### The condition -/

/-- The value that an entry gives to a key. -/
def given (key : String) (entry : (_ : String) × α) : Option String :=
  let value := trimSpace (sprint entry.2)
  if normalizeHeaderContextKey go entry.1 = key ∧ key ≠ "" ∧
      (value ≠ "" ∨ isHeaderPassthroughRuleKey go key = true) then some value
  else none

/-- What a header may come to by explicit overrides: one result for each entry of its key, and
nothing if there is none. -/
def results (source : GoMap α) (request : ClientRequest) (apiKey key : String) :
    List (Option (Option String)) :=
  if source.entries.filterMap (given go sprint key) = [] then [some none]
  else (source.entries.filterMap (given go sprint key)).map (resolve go request apiKey key)

/-- The rules pass a name on, with their patterns in lower case. -/
def Passes (source : GoMap α) (request : ClientRequest) (name : String) : Prop :=
  PassesAll go source request ∨ MatchesLowered go source request name

/-- What is sent for a header is settled: two results are the same, or one is no value and the other
one is the value that the rules pass on. -/
def Settled (source : GoMap α) (request : ClientRequest) (key : String)
    (result result' : Option (Option String)) : Prop :=
  result = result' ∨ ∃ value, Forwards go (Passes go source request) request key value ∧
    (result = some none ∧ result' = some (some value) ∨
      result = some (some value) ∧ result' = some none)

/-- **An override whose rules are followed.** Patterns are valid, and those in lower case match the
names at hand as the configured ones do, where no explicit override takes the place of the header;
no guarded header is passed; and different entries of one key come to the same. -/
structure Sound (source : GoMap α) (request : ClientRequest) (apiKey : String) : Prop where
  valid : ¬SomeInvalid go (configuredPattern go) source request ∧
    ¬SomeInvalid go (loweredPattern go) source request
  matching : ∀ name, MayForward go request name → ¬PassesAll go source request →
    some none ∈ results go sprint source request apiKey (go.toLower (trimSpace name)) →
      (MatchesLowered go source request name ↔ MatchesAsConfigured go source request name)
  guarded : ∀ name, MayForward go request name → go.toLower (trimSpace name) ∈ guardedNames →
    some none ∈ results go sprint source request apiKey (go.toLower (trimSpace name)) →
      ¬Passes go source request name
  settled : ∀ key, ∀ result ∈ results go sprint source request apiKey key,
    ∀ result' ∈ results go sprint source request apiKey key,
      Settled go source request key result result'

/-- An override that is refused in every order: a pattern is invalid both ways, or no entry of some
key can be resolved. -/
def AlwaysRefused (source : GoMap α) (request : ClientRequest) (apiKey : String) : Prop :=
  (SomeInvalid go (configuredPattern go) source request ∧
      SomeInvalid go (loweredPattern go) source request) ∨
    ∃ key, ∀ result ∈ results go sprint source request apiKey key, result = none

/-- A key in lower case and without space around it stays as it is. -/
def Stable (go : Libs B) : Prop :=
  ∀ key, normalizeHeaderContextKey go (normalizeHeaderContextKey go key) =
    normalizeHeaderContextKey go key

variable {go sprint} {source : GoMap α} {request : ClientRequest} {apiKey : String} {o : Orders α}

/-! ### The override in an order -/

section Sanitized

theorem lookup_sanitizeEntry (target : GoMap String) (entry : (_ : String) × α) (key : String) :
    (sanitizeEntry go sprint target entry).lookup key =
      (given go sprint key entry).or (target.lookup key) := by
  by_cases hkey : normalizeHeaderContextKey go entry.1 = key
  · subst hkey
    simp only [sanitizeEntry, given]
    by_cases hempty : normalizeHeaderContextKey go entry.1 = ""
    · simp [hempty]
    · by_cases hvalue : trimSpace (sprint entry.2) = ""
      · by_cases hrule : isHeaderPassthroughRuleKey go (normalizeHeaderContextKey go entry.1)
        · simp [hempty, hvalue, hrule]
        · simp [hempty, hvalue, hrule]
      · simp [hempty, hvalue]
  · have hne : key ≠ normalizeHeaderContextKey go entry.1 := Ne.symm hkey
    have hnone : given go sprint key entry = none := if_neg fun h => hkey h.1
    have hinsert (value : String) : (target.insert (normalizeHeaderContextKey go entry.1)
        value).lookup key = target.lookup key := AList.lookup_insert_ne hne
    rw [hnone, Option.none_or]
    simp only [sanitizeEntry, apply_ite (AList.lookup key), hinsert, ite_self]

/-- **The override** has the last value that is given to a key. -/
theorem lookup_sanitized (l : List ((_ : String) × α)) (key : String) :
    (sanitized go sprint l).lookup key = pick (given go sprint) l key := by
  have hmap := lookup_foldl (fun (m : GoMap String) key => m.lookup key) (sanitizeEntry go sprint)
    lookup_sanitizeEntry l ∅ key
  rw [AList.lookup_empty, Option.or_none] at hmap
  exact hmap

theorem normalize_of_given {key value : String} {entry : (_ : String) × α}
    (h : given go sprint key entry = some value) : normalizeHeaderContextKey go entry.1 = key := by
  rw [given] at h
  exact (Option.ite_none_right_eq_some.1 h).1.1

variable (hnorm : Stable go)

include hnorm in
/-- The keys of the override are in their normal form. -/
theorem normalize_of_lookup {l : List ((_ : String) × α)} {key value : String}
    (h : (sanitized go sprint l).lookup key = some value) :
    normalizeHeaderContextKey go key = key := by
  rw [lookup_sanitized] at h
  obtain ⟨entry, -, hentry⟩ := exists_mem_of_pick h
  rw [← normalize_of_given hentry, hnorm]

/-- A key of the override comes from one of the source. -/
theorem exists_of_mem_sanitized {l : List ((_ : String) × α)} (hperm : l.Perm source.entries)
    {key : String} (h : key ∈ (sanitized go sprint l).entries.map Sigma.fst) :
    ∃ key' ∈ source.keys, normalizeHeaderContextKey go key' = key := by
  obtain ⟨⟨key, value⟩, hmem, rfl⟩ := List.mem_map.1 h
  have hlookup := AList.mem_lookup_iff.2 hmem
  rw [lookup_sanitized] at hlookup
  obtain ⟨entry, hentry, hgiven⟩ := exists_mem_of_pick hlookup
  exact ⟨entry.1, List.mem_map_of_mem (hperm.mem_iff.1 hentry), normalize_of_given hgiven⟩

include hnorm in
theorem mem_sanitized_of_rule {l : List ((_ : String) × α)} (hperm : l.Perm source.entries)
    {key : String} (hkey : key ∈ source.keys)
    (hrule : isHeaderPassthroughRuleKey go (normalizeHeaderContextKey go key) = true) :
    normalizeHeaderContextKey go key ∈ (sanitized go sprint l).entries.map Sigma.fst := by
  obtain ⟨entry, hentry, rfl⟩ := List.mem_map.1 hkey
  have hne : normalizeHeaderContextKey go entry.1 ≠ "" := fun hempty => by
    have hfixed := hnorm entry.1
    rw [hempty] at hfixed hrule
    rw [isHeaderPassthroughRuleKey, ← normalizeHeaderContextKey, hfixed] at hrule
    exact absurd hrule (by decide)
  have hgiven : given go sprint (normalizeHeaderContextKey go entry.1) entry =
      some (trimSpace (sprint entry.2)) := if_pos ⟨rfl, hne, .inr hrule⟩
  have hpick : (sanitized go sprint l).lookup (normalizeHeaderContextKey go entry.1) ≠ none := by
    rw [lookup_sanitized, Ne, pick_eq_none_iff]
    intro hnone
    rw [hnone entry (hperm.mem_iff.2 hentry)] at hgiven
    exact Option.some_ne_none _ hgiven.symm
  obtain ⟨value, hvalue⟩ := Option.ne_none_iff_exists'.1 hpick
  exact List.mem_map.2 ⟨_, AList.mem_lookup_iff.1 hvalue, rfl⟩

theorem isRule_of_pattern {key pattern : String}
    (h : passthroughPattern (normalizeHeaderContextKey go key) = some pattern) :
    isHeaderPassthroughRuleKey go key = true := by
  rw [isHeaderPassthroughRuleKey, ← normalizeHeaderContextKey, Bool.or_eq_true, Bool.or_eq_true]
  rw [passthroughPattern] at h
  by_cases hre : startsWith (normalizeHeaderContextKey go key) "re:" = true
  · exact .inl (.inr hre)
  · by_cases hregex : startsWith (normalizeHeaderContextKey go key) "regex:" = true
    · exact .inr hregex
    · rw [if_neg hre, if_neg hregex] at h
      cases h

variable (ho : o.Of go sprint source request)

include hnorm ho in
/-- **The patterns** are those of the source, in every order. -/
theorem mem_patterns_iff (pattern : String) :
    pattern ∈ (o.rules.map Sigma.fst).filterMap
        (fun key => passthroughPattern (trimSpace (go.toLower key))) ↔
      ∃ key ∈ source.keys, loweredPattern go key = some pattern := by
  have hkeys (key : String) : key ∈ o.rules.map Sigma.fst ↔
      key ∈ (sanitized go sprint o.source).entries.map Sigma.fst := (ho.rules.map _).mem_iff
  rw [List.mem_filterMap]
  constructor
  · rintro ⟨key, hkey, hpattern⟩
    obtain ⟨key', hkey', rfl⟩ := exists_of_mem_sanitized ho.source ((hkeys key).1 hkey)
    refine ⟨key', hkey', ?_⟩
    rw [← normalizeHeaderContextKey, hnorm] at hpattern
    exact hpattern
  · rintro ⟨key, hkey, hpattern⟩
    have hpattern' : passthroughPattern (normalizeHeaderContextKey go
        (normalizeHeaderContextKey go key)) = some pattern := by
      rw [hnorm]
      exact hpattern
    exact ⟨_, (hkeys _).2 (mem_sanitized_of_rule hnorm ho.source hkey
      (isRule_of_pattern hpattern')), hpattern'⟩

include hnorm ho in
/-- **The rule `*`** is one of the source, in every order. -/
theorem any_star_iff :
    (o.rules.map Sigma.fst).any (fun key => trimSpace (go.toLower key) = "*") = true ↔
      ∃ key ∈ source.keys, normalizeHeaderContextKey go key = "*" := by
  have hkeys (key : String) : key ∈ o.rules.map Sigma.fst ↔
      key ∈ (sanitized go sprint o.source).entries.map Sigma.fst := (ho.rules.map _).mem_iff
  rw [List.any_eq_true]
  constructor
  · rintro ⟨key, hkey, hstar⟩
    obtain ⟨key', hkey', rfl⟩ := exists_of_mem_sanitized ho.source ((hkeys key).1 hkey)
    refine ⟨key', hkey', ?_⟩
    rw [decide_eq_true_iff, ← normalizeHeaderContextKey, hnorm] at hstar
    exact hstar
  · rintro ⟨key, hkey, hstar⟩
    have hrule : isHeaderPassthroughRuleKey go (normalizeHeaderContextKey go key) = true := by
      rw [isHeaderPassthroughRuleKey, ← normalizeHeaderContextKey, hnorm, hstar]
      decide
    refine ⟨_, (hkeys _).2 (mem_sanitized_of_rule hnorm ho.source hkey hrule), ?_⟩
    rw [decide_eq_true_iff, ← normalizeHeaderContextKey, hnorm, hstar]

end Sanitized

/-! ### The headers that are passed on -/

section Passed

theorem mapM_compilePattern (go : Libs B) (patterns : List String) :
    ((∃ message, patterns.mapM (compilePattern go) = .error message) ↔
        ∃ pattern ∈ patterns, Invalid go pattern) ∧
      ∀ regex, patterns.mapM (compilePattern go) = .ok regex → ∀ name,
        (regex.any (· name) = true ↔ ∃ pattern ∈ patterns, ∃ re ∈ go.compile pattern,
          re name = true) := by
  induction patterns with
  | nil =>
    refine ⟨iff_of_false (fun ⟨_, h⟩ => nomatch h) (fun ⟨_, h, _⟩ => nomatch h), ?_⟩
    rintro regex hregex name
    obtain rfl := Except.ok.inj hregex
    exact iff_of_false Bool.false_ne_true (fun ⟨_, h, _⟩ => nomatch h)
  | cons pattern patterns ih =>
    rw [List.mapM_cons]
    by_cases hempty : pattern = ""
    · have herror : compilePattern go pattern =
          .error "header passthrough regex pattern is empty" := if_pos hempty
      rw [herror]
      exact ⟨iff_of_true ⟨_, rfl⟩ ⟨pattern, List.mem_cons_self, .inl hempty⟩, nofun⟩
    · cases hcompile : go.compile pattern with
      | none =>
        have herror : compilePattern go pattern = .error "error parsing regexp" := by
          rw [compilePattern, if_neg hempty, hcompile]
        rw [herror]
        exact ⟨iff_of_true ⟨_, rfl⟩ ⟨pattern, List.mem_cons_self, .inr hcompile⟩, nofun⟩
      | some re =>
        have hok : compilePattern go pattern = .ok re := by
          rw [compilePattern, if_neg hempty, hcompile]
        have hvalid : ¬Invalid go pattern := by
          rw [Invalid, hcompile]
          exact not_or.2 ⟨hempty, Option.some_ne_none re⟩
        rw [hok]
        cases hrest : patterns.mapM (compilePattern go) with
        | error message =>
          obtain ⟨pattern', hmem, hinvalid⟩ := ih.1.1 ⟨message, hrest⟩
          exact ⟨iff_of_true ⟨_, rfl⟩ ⟨pattern', List.mem_cons_of_mem _ hmem, hinvalid⟩, nofun⟩
        | ok regex =>
          have hno := (not_congr ih.1).1 fun ⟨_, h⟩ => nomatch hrest.symm.trans h
          refine ⟨iff_of_false (fun ⟨_, h⟩ => nomatch h) ?_, ?_⟩
          · rintro ⟨pattern', hmem, hinvalid⟩
            rcases List.mem_cons.1 hmem with rfl | hmem
            · exact hvalid hinvalid
            · exact hno ⟨pattern', hmem, hinvalid⟩
          · rintro regex' hregex' name
            obtain rfl := Except.ok.inj hregex'
            rw [List.any_cons, Bool.or_eq_true, ih.2 regex hrest name]
            simp [hcompile]

/-- The value that a header of the client gives to a key. -/
def passedValue (go : Libs B) (request : ClientRequest) (passAll : Bool)
    (regex : List (String → Bool)) (key name : String) : Option String :=
  if (shouldSkipPassthroughHeader go name || !(passAll || regex.any (· name)) ||
      trimSpace (request.headerGet name) = "") = false ∧ go.toLower (trimSpace name) = key then
    some (trimSpace (request.headerGet name))
  else none

theorem lookup_passedHeader (go : Libs B) (request : ClientRequest) (passAll : Bool)
    (regex : List (String → Bool)) (target : GoMap String) (name key : String) :
    (if shouldSkipPassthroughHeader go name || !(passAll || regex.any (· name)) ||
        trimSpace (request.headerGet name) = "" then target
      else target.insert (go.toLower (trimSpace name))
        (trimSpace (request.headerGet name))).lookup key =
      (passedValue go request passAll regex key name).or (target.lookup key) := by
  by_cases hskip : (shouldSkipPassthroughHeader go name || !(passAll || regex.any (· name)) ||
      trimSpace (request.headerGet name) = "") = true
  · rw [if_pos hskip]
    have hnone : passedValue go request passAll regex key name = none := by
      refine if_neg fun h => ?_
      rw [hskip] at h
      exact Bool.false_ne_true h.1.symm
    rw [hnone, Option.none_or]
  · rw [if_neg hskip]
    by_cases hkey : go.toLower (trimSpace name) = key
    · have hsome : passedValue go request passAll regex key name =
          some (trimSpace (request.headerGet name)) :=
        if_pos ⟨Bool.eq_false_iff.2 hskip, hkey⟩
      rw [hsome, hkey, AList.lookup_insert]
      rfl
    · have hnone : passedValue go request passAll regex key name = none :=
        if_neg fun h => hkey h.2
      rw [hnone, Option.none_or, AList.lookup_insert_ne (Ne.symm hkey)]

theorem lookup_passedHeaders (names : List String) (passAll : Bool)
    (regex : List (String → Bool)) (key : String) :
    (passedHeaders go { request with headerNames := names } passAll regex).lookup key =
      pick (passedValue go request passAll regex) names key := by
  have hmap := lookup_foldl (fun (m : GoMap String) key => m.lookup key) _
    (lookup_passedHeader go request passAll regex) names ∅ key
  rw [AList.lookup_empty, Option.or_none] at hmap
  exact hmap

theorem passedValue_eq_some_iff {passAll : Bool} {regex : List (String → Bool)}
    {key name value : String} :
    passedValue go request passAll regex key name = some value ↔
      (shouldSkipPassthroughHeader go name = false ∧
        trimSpace (request.headerGet name) ≠ "") ∧
        (passAll = true ∨ regex.any (· name) = true) ∧ go.toLower (trimSpace name) = key ∧
          trimSpace (request.headerGet name) = value := by
  rw [passedValue, Option.ite_none_right_eq_some, Option.some.injEq, Bool.or_eq_false_iff,
    Bool.or_eq_false_iff, Bool.not_eq_false', Bool.or_eq_true, decide_eq_false_iff_not]
  constructor
  · rintro ⟨⟨⟨⟨hskip, hpasses⟩, hvalue⟩, hkey⟩, heq⟩
    exact ⟨⟨hskip, hvalue⟩, hpasses, hkey, heq⟩
  · rintro ⟨⟨hskip, hvalue⟩, hpasses, hkey, heq⟩
    exact ⟨⟨⟨⟨hskip, hpasses⟩, hvalue⟩, hkey⟩, heq⟩

/-- No two headers of the client have names that are the same in lower case. -/
def DistinctNames (go : Libs B) (request : ClientRequest) : Prop :=
  (request.headerNames.map fun name => go.toLower (trimSpace name)).Nodup

/-- **The headers that are passed on**, in every order of them. -/
theorem lookup_passedHeaders_iff (hnames : DistinctNames go request) {names : List String}
    (hperm : names.Perm request.headerNames) {passAll : Bool} {regex : List (String → Bool)}
    {passes : String → Prop}
    (hpasses : ∀ name, (passAll = true ∨ regex.any (· name) = true) ↔ passes name)
    (key value : String) :
    (passedHeaders go { request with headerNames := names } passAll regex).lookup key =
      some value ↔ Forwards go passes request key value := by
  rw [lookup_passedHeaders, pick_eq_some_iff]
  · simp only [passedValue_eq_some_iff, hpasses, hperm.mem_iff, Forwards, MayForward]
    refine exists_congr fun name => ?_
    constructor
    · rintro ⟨hmem, hname, hall, hkey, hvalue⟩
      exact ⟨⟨hmem, hname⟩, hall, hkey, hvalue⟩
    · rintro ⟨⟨hmem, hname⟩, hall, hkey, hvalue⟩
      exact ⟨hmem, hname, hall, hkey, hvalue⟩
  · rintro name hmem name' hmem' hsome hsome'
    obtain ⟨value, hvalue⟩ := Option.isSome_iff_exists.1 hsome
    obtain ⟨value', hvalue'⟩ := Option.isSome_iff_exists.1 hsome'
    have hkey := (passedValue_eq_some_iff.1 hvalue).2.2.1
    have hkey' := (passedValue_eq_some_iff.1 hvalue').2.2.1
    exact List.inj_on_of_nodup_map hnames (hperm.mem_iff.1 hmem) (hperm.mem_iff.1 hmem')
      (hkey.trans hkey'.symm)

/-- **The rules**: an error, or the headers that they pass on in lower case. -/
theorem rules_cases (apiKey : String) (hnorm : Stable go) (hnames : DistinctNames go request)
    (ho : o.Of go sprint source request) :
    (SomeInvalid go (loweredPattern go) source request ∧
        ∃ message, processHeaderOverrideIn go request apiKey o = .error message) ∨
      ¬SomeInvalid go (loweredPattern go) source request ∧ ∃ passed : GoMap String,
        processHeaderOverrideIn go request apiKey o =
            o.explicit.foldlM (sendEntry go request apiKey) passed ∧
          ∀ key value, passed.lookup key = some value ↔
            Forwards go (Passes go source request) request key value := by
  rw [processHeaderOverrideIn]
  cases htest : request.isChannelTest with
  | true =>
    have hpasses (name : String) : ¬Passes go source request name := by
      rintro (⟨h, -⟩ | ⟨h, -⟩) <;> exact absurd (htest.symm.trans h) nofun
    refine .inr ⟨fun h => absurd (htest.symm.trans h.1) nofun, ∅, rfl, fun key value => ?_⟩
    rw [AList.lookup_empty]
    exact iff_of_false (Option.some_ne_none value).symm fun ⟨name, _, h, _⟩ => hpasses name h
  | false =>
    obtain ⟨herror, hmatches⟩ := mapM_compilePattern go ((o.rules.map Sigma.fst).filterMap
      fun key => passthroughPattern (trimSpace (go.toLower key)))
    have hinvalid : SomeInvalid go (loweredPattern go) source request ↔
        ∃ pattern ∈ (o.rules.map Sigma.fst).filterMap
          (fun key => passthroughPattern (trimSpace (go.toLower key))), Invalid go pattern := by
      simp only [mem_patterns_iff hnorm ho, SomeInvalid, htest, true_and, Option.mem_def]
      constructor
      · rintro ⟨key, hkey, pattern, hpattern, h⟩
        exact ⟨pattern, ⟨key, hkey, hpattern⟩, h⟩
      · rintro ⟨pattern, ⟨key, hkey, hpattern⟩, h⟩
        exact ⟨key, hkey, pattern, hpattern, h⟩
    cases hregex : passthroughRegexOf go (o.rules.map Sigma.fst) with
    | error message =>
      exact .inl ⟨hinvalid.2 (herror.1 ⟨message, hregex⟩), message, rfl⟩
    | ok regex =>
      refine .inr ⟨fun h => ?_, _, rfl, fun key value => ?_⟩
      · obtain ⟨message, hmessage⟩ := herror.2 (hinvalid.1 h)
        exact nomatch hregex.symm.trans hmessage
      · have hpasses (name : String) : ((o.rules.map Sigma.fst).any
              (fun key => trimSpace (go.toLower key) = "*") = true ∨
              regex.any (· name) = true) ↔ Passes go source request name := by
          rw [any_star_iff hnorm ho, hmatches regex hregex name]
          simp only [mem_patterns_iff hnorm ho, Passes, PassesAll, MatchesLowered, htest,
            true_and, Option.mem_def]
          refine or_congr Iff.rfl ⟨?_, ?_⟩
          · rintro ⟨pattern, ⟨key, hkey, hpattern⟩, re, hre, h⟩
            exact ⟨key, hkey, pattern, hpattern, re, hre, h⟩
          · rintro ⟨key, hkey, pattern, hpattern, re, hre, h⟩
            exact ⟨pattern, ⟨key, hkey, hpattern⟩, re, hre, h⟩
        rw [← lookup_passedHeaders_iff hnames ho.names hpasses]
        simp only [Bool.not_false, Bool.true_and]
        split_ifs with hany
        · rfl
        · -- no rule passes anything
          simp only [Bool.or_eq_true, not_or, Bool.not_eq_true, Bool.not_eq_false',
            List.isEmpty_iff] at hany
          rw [hany.1, hany.2, lookup_passedHeaders_iff hnames ho.names fun _ => Iff.rfl]
          refine iff_of_false (Option.some_ne_none value).symm ?_
          rintro ⟨name, -, h | h, -⟩ <;> exact Bool.false_ne_true h

end Passed

end NewApiPool.Relay.HeaderPassthrough
