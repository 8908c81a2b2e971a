import NewApiPool.Relay.HeaderPassthrough

/-!
# Header passthrough in all orders

A header that is set by an explicit override comes to one of its results, and each of them is that
of some order (`comesToIn_mem`, `exists_order`). So a header override is followed in every order if
it is sound, or refused in all of them, and in no other case (`processHeaderOverride_iff`).
-/

namespace NewApiPool.Relay.HeaderPassthrough

open GoText LastWins

variable {B α : Type} {go : Libs B} {sprint : α → String} {source : GoMap α}
  {request : ClientRequest} {apiKey : String} {o : Orders α}

/-! ### The explicit overrides -/

section Explicit

/-- What a header comes to by the entries of an override. -/
def comesTo (go : Libs B) (request : ClientRequest) (apiKey : String)
    (entries : List ((_ : String) × String)) (key : String) : Option (Option String) :=
  ((entries.dlookup key).map (resolve go request apiKey key)).getD (some none)

/-- **One entry**: an error, or what its value comes to. -/
theorem sendEntry_cases (apiKey : String) {key : String} (value : String)
    (hkey : normalizeHeaderContextKey go key = key)
    (target : GoMap String) :
    (resolve go request apiKey key value = none ∧
        ∃ message, sendEntry go request apiKey target ⟨key, value⟩ = .error message) ∨
      ∃ result, resolve go request apiKey key value = some result ∧
        ∃ headers, sendEntry go request apiKey target ⟨key, value⟩ = .ok headers ∧
          headers.lookup key = result.or (target.lookup key) ∧
          ∀ key', key' ≠ key → headers.lookup key' = target.lookup key' := by
  have hkey' : trimSpace (go.toLower key) = key := hkey
  rw [resolve, sendEntry, hkey']
  dsimp only
  split_ifs with hskip
  · exact .inr ⟨none, rfl, target, rfl, Option.none_or.symm, fun _ _ => rfl⟩
  · cases applyHeaderOverridePlaceholders value request apiKey with
    | error message => exact .inl ⟨rfl, message, rfl⟩
    | ok result =>
      refine .inr ⟨result, rfl, ?_⟩
      cases result with
      | none => exact ⟨target, rfl, Option.none_or.symm, fun _ _ => rfl⟩
      | some sent =>
        refine ⟨target.insert key sent, rfl, ?_, fun _ hne => AList.lookup_insert_ne hne⟩
        rw [AList.lookup_insert]
        rfl

/-- **The loop over the explicit overrides**: an error if one of them has no result, and else each
header has what it comes to, or what it had before. -/
theorem foldlM_sendEntry (apiKey : String) (entries : List ((_ : String) × String))
    (hkeys : ∀ entry ∈ entries, normalizeHeaderContextKey go entry.1 = entry.1)
    (hnodup : entries.NodupKeys) (target : GoMap String) :
    ((∃ key, comesTo go request apiKey entries key = none) ∧
        ∃ message, entries.foldlM (sendEntry go request apiKey) target = .error message) ∨
      ∃ headers, entries.foldlM (sendEntry go request apiKey) target = .ok headers ∧
        ∀ key, ∃ result, comesTo go request apiKey entries key = some result ∧
          headers.lookup key = result.or (target.lookup key) := by
  induction entries generalizing target with
  | nil => exact .inr ⟨target, rfl, fun key => ⟨none, rfl, Option.none_or.symm⟩⟩
  | cons entry entries ih =>
    obtain ⟨name, value⟩ := entry
    rw [List.forall_mem_cons] at hkeys
    obtain ⟨hfresh, hnodup⟩ := List.nodupKeys_cons.1 hnodup
    have hself : comesTo go request apiKey (⟨name, value⟩ :: entries) name =
        resolve go request apiKey name value := by
      rw [comesTo, List.dlookup_cons_eq, Option.map_some, Option.getD_some]
    have hother {key : String} (hne : key ≠ name) :
        comesTo go request apiKey (⟨name, value⟩ :: entries) key =
          comesTo go request apiKey entries key := by
      have hdrop : (⟨name, value⟩ :: entries).dlookup key = entries.dlookup key :=
        List.dlookup_cons_ne entries ⟨name, value⟩ hne
      rw [comesTo, comesTo, hdrop]
    have hnone : comesTo go request apiKey entries name = some none := by
      rw [comesTo, List.dlookup_eq_none.2 hfresh]
      rfl
    rw [List.foldlM_cons]
    rcases sendEntry_cases apiKey value hkeys.1 target with
      ⟨hresolve, message, hsend⟩ | ⟨result, hresolve, headers, hsend, hlookup, hrest⟩
    · rw [hsend]
      exact .inl ⟨⟨name, hself.trans hresolve⟩, message, rfl⟩
    · rw [hsend]
      rcases ih hkeys.2 hnodup headers with ⟨⟨key, hkey⟩, herror⟩ | ⟨headers', hok, hall⟩
      · refine .inl ⟨⟨key, ?_⟩, herror⟩
        have hne : key ≠ name := fun h => by
          rw [h, hnone] at hkey
          exact Option.some_ne_none _ hkey
        rw [hother hne, hkey]
      · refine .inr ⟨headers', hok, fun key => ?_⟩
        obtain ⟨result', hresult', hlookup'⟩ := hall key
        by_cases hkey : key = name
        · subst hkey
          rw [hnone] at hresult'
          obtain rfl := Option.some.inj hresult'
          exact ⟨result, hself.trans hresolve, by rw [hlookup', Option.none_or, hlookup]⟩
        · exact ⟨result', (hother hkey).trans hresult', by rw [hlookup', hrest key hkey]⟩

/-- What a header comes to in an order. -/
def comesToIn (go : Libs B) (sprint : α → String) (request : ClientRequest) (apiKey : String)
    (o : Orders α) (key : String) : Option (Option String) :=
  ((pick (given go sprint) o.source key).map (resolve go request apiKey key)).getD (some none)

theorem comesTo_eq (ho : o.Of go sprint source request) (key : String) :
    comesTo go request apiKey o.explicit key = comesToIn go sprint request apiKey o key := by
  have hnodup : o.explicit.NodupKeys :=
    (List.perm_nodupKeys ho.explicit).2 (sanitized go sprint o.source).nodupKeys
  rw [comesTo, comesToIn, List.perm_dlookup key hnodup ho.explicit, ← lookup_sanitized]
  rfl

theorem explicitValue_eq (o : Orders α) (key : String) :
    explicitValue go sprint request apiKey o key =
      (comesToIn go sprint request apiKey o key).join := by
  rw [explicitValue, comesToIn, lookup_sanitized]
  cases pick (given go sprint) o.source key with
  | none => rw [Option.bind_none, Option.map_none, Option.getD_none, Option.join_some]
  | some value => rw [Option.bind_some, Option.map_some, Option.getD_some]

theorem refuses_iff (o : Orders α) : Refuses go sprint source request apiKey o ↔
    SomeInvalid go (configuredPattern go) source request ∨
      ∃ key, comesToIn go sprint request apiKey o key = none := by
  refine or_congr Iff.rfl (exists_congr fun key => ?_)
  rw [comesToIn, lookup_sanitized]
  cases pick (given go sprint) o.source key <;> simp

/-- **A run in an order**: an error, or what each header comes to, with what the rules pass on. -/
theorem run_cases (apiKey : String) (hnorm : Stable go) (hnames : DistinctNames go request)
    (ho : o.Of go sprint source request) :
    ((SomeInvalid go (loweredPattern go) source request ∨
          ∃ key, comesToIn go sprint request apiKey o key = none) ∧
        ∃ message, processHeaderOverrideIn go request apiKey o = .error message) ∨
      ¬SomeInvalid go (loweredPattern go) source request ∧ ∃ headers,
        processHeaderOverrideIn go request apiKey o = .ok headers ∧
          ∀ key, ∃ result, comesToIn go sprint request apiKey o key = some result ∧
            ∀ value, headers.lookup key = some value ↔ result = some value ∨
              result = none ∧ Forwards go (Passes go source request) request key value := by
  rcases rules_cases apiKey hnorm hnames ho with
    ⟨hinvalid, herror⟩ | ⟨hvalid, passed, hrun, hpassed⟩
  · exact .inl ⟨.inl hinvalid, herror⟩
  · have hnodup : o.explicit.NodupKeys :=
      (List.perm_nodupKeys ho.explicit).2 (sanitized go sprint o.source).nodupKeys
    have hkeys : ∀ entry ∈ o.explicit, normalizeHeaderContextKey go entry.1 = entry.1 := by
      rintro ⟨key, value⟩ hmem
      exact normalize_of_lookup hnorm (AList.mem_lookup_iff.2 (ho.explicit.mem_iff.1 hmem))
    rw [hrun]
    rcases foldlM_sendEntry apiKey o.explicit hkeys hnodup passed with
      ⟨⟨key, hkey⟩, herror⟩ | ⟨headers, hok, hall⟩
    · exact .inl ⟨.inr ⟨key, (comesTo_eq ho key).symm.trans hkey⟩, herror⟩
    · refine .inr ⟨hvalid, headers, hok, fun key => ?_⟩
      obtain ⟨result, hresult, hlookup⟩ := hall key
      refine ⟨result, (comesTo_eq ho key).symm.trans hresult, fun value => ?_⟩
      rw [hlookup, Option.or_eq_some_iff, hpassed]

end Explicit

/-! ### All orders -/

section AllOrders

variable {key : String}

theorem given_eq_none {key' value : String} {entry : (_ : String) × α}
    (h : given go sprint key entry = some value) (hne : key' ≠ key) :
    given go sprint key' entry = none :=
  if_neg fun h' => hne (h'.1.symm.trans (normalize_of_given h))

variable {result : Option (Option String)}

theorem mem_results_iff :
    result ∈ results go sprint source request apiKey key ↔
      ((∀ entry ∈ source.entries, given go sprint key entry = none) ∧ result = some none) ∨
      ∃ entry ∈ source.entries, ∃ value, given go sprint key entry = some value ∧
        resolve go request apiKey key value = result := by
  rw [results]
  split_ifs with hnone
  · rw [List.filterMap_eq_nil_iff] at hnone
    rw [List.mem_singleton]
    refine ⟨fun h => .inl ⟨hnone, h⟩, ?_⟩
    rintro (⟨-, h⟩ | ⟨entry, hentry, value, hgiven, -⟩)
    · exact h
    · exact absurd ((hnone entry hentry).symm.trans hgiven) nofun
  · rw [List.mem_map]
    constructor
    · rintro ⟨value, hvalue, hresult⟩
      obtain ⟨entry, hentry, hgiven⟩ := List.mem_filterMap.1 hvalue
      exact .inr ⟨entry, hentry, value, hgiven, hresult⟩
    · rintro (⟨h, -⟩ | ⟨entry, hentry, value, hgiven, hresult⟩)
      · exact absurd (List.filterMap_eq_nil_iff.2 h) hnone
      · exact ⟨value, List.mem_filterMap.2 ⟨entry, hentry, hgiven⟩, hresult⟩

/-- **In every order** a header comes to one of its results. -/
theorem comesToIn_mem (ho : o.Of go sprint source request) (apiKey key : String) :
    comesToIn go sprint request apiKey o key ∈ results go sprint source request apiKey key := by
  rw [mem_results_iff, comesToIn]
  cases hpick : pick (given go sprint) o.source key with
  | none =>
    exact .inl ⟨fun entry hentry => pick_eq_none_iff.1 hpick entry (ho.source.mem_iff.2 hentry),
      rfl⟩
  | some value =>
    obtain ⟨entry, hentry, hgiven⟩ := exists_mem_of_pick hpick
    refine .inr ⟨entry, ho.source.mem_iff.1 hentry, value, hgiven, ?_⟩
    rw [Option.map_some, Option.getD_some]

/-- **Every result is that of an order**, in which nothing else is refused if it need not be. -/
theorem exists_order (hresult : result ∈ results go sprint source request apiKey key)
    (hothers : ∀ key, ∃ result ∈ results go sprint source request apiKey key, result ≠ none) :
    ∃ o : Orders α, o.Of go sprint source request ∧
      comesToIn go sprint request apiKey o key = result ∧
      ∀ key', key' ≠ key → comesToIn go sprint request apiKey o key' ≠ none := by
  classical
  -- an entry comes last if it has the result, or belongs to another key and is not refused
  obtain ⟨l, hperm, hlast⟩ := exists_perm_pick (given go sprint)
    (fun entry => decide (∀ key' value, given go sprint key' entry = some value →
      if key' = key then resolve go request apiKey key' value = result
      else resolve go request apiKey key' value ≠ none)) source.entries
  have hpreferred {key' value : String} {entry : (_ : String) × α}
      (hmem : entry ∈ source.entries) (hgiven : given go sprint key' entry = some value)
      (h : if key' = key then resolve go request apiKey key' value = result
        else resolve go request apiKey key' value ≠ none) :
      if key' = key then (((pick (given go sprint) l key').map
          (resolve go request apiKey key')).getD (some none)) = result
        else (((pick (given go sprint) l key').map
          (resolve go request apiKey key')).getD (some none)) ≠ none := by
    have hprefer : ∀ key'' value', given go sprint key'' entry = some value' →
        if key'' = key then resolve go request apiKey key'' value' = result
        else resolve go request apiKey key'' value' ≠ none := by
      rintro key'' value' hgiven'
      by_cases hkey : key'' = key'
      · subst hkey
        obtain rfl := Option.some.inj (hgiven.symm.trans hgiven')
        exact h
      · exact absurd ((given_eq_none hgiven hkey).symm.trans hgiven') nofun
    obtain ⟨entry', -, hprefer', hsome, hpick⟩ :=
      hlast key' entry hmem (decide_eq_true hprefer) (hgiven ▸ rfl)
    obtain ⟨value', hvalue'⟩ := Option.isSome_iff_exists.1 hsome
    rw [hpick, hvalue', Option.map_some, Option.getD_some]
    exact of_decide_eq_true hprefer' key' value' hvalue'
  have hempty {key' : String} (h : ∀ entry ∈ source.entries,
      given go sprint key' entry = none) : pick (given go sprint) l key' = none :=
    pick_eq_none_iff.2 fun entry hentry => h entry (hperm.mem_iff.1 hentry)
  refine ⟨⟨l, (sanitized go sprint l).entries, request.headerNames,
    (sanitized go sprint l).entries⟩, ⟨hperm, .refl _, .refl _, .refl _⟩, ?_, fun key' hne => ?_⟩
  · rw [comesToIn]
    rcases mem_results_iff.1 hresult with ⟨hnone, rfl⟩ | ⟨entry, hmem, value, hgiven, hresolve⟩
    · rw [hempty hnone]
      rfl
    · have hpick := hpreferred hmem hgiven (by rw [if_pos rfl]; exact hresolve)
      rwa [if_pos rfl] at hpick
  · rw [comesToIn]
    obtain ⟨result', hresult', hsome⟩ := hothers key'
    rcases mem_results_iff.1 hresult' with ⟨hnone, rfl⟩ | ⟨entry, hmem, value, hgiven, rfl⟩
    · rw [hempty hnone]
      exact hsome
    · have hpick := hpreferred hmem hgiven (by rw [if_neg hne]; exact hsome)
      rwa [if_neg hne] at hpick

/-- A header of the client is passed on as itself only. -/
theorem forwards_iff (hnames : DistinctNames go request) {name : String}
    (hname : MayForward go request name) {passes : String → Prop} :
    Forwards go passes request (go.toLower (trimSpace name)) (trimSpace (request.headerGet name)) ↔
      passes name := by
  constructor
  · rintro ⟨name', hname', hpasses, hkey, -⟩
    obtain rfl := List.inj_on_of_nodup_map hnames hname'.1 hname.1 hkey
    exact hpasses
  · exact fun h => ⟨name, hname, h, rfl, rfl⟩

variable (hnorm : Stable go) (hnames : DistinctNames go request)

include hnorm hnames in
/-- Where the rules are followed for every header in some order, the order has headers to send. -/
theorem exists_headers (ho : o.Of go sprint source request)
    (hvalid : ¬SomeInvalid go (loweredPattern go) source request)
    (hsome : ∀ key, comesToIn go sprint request apiKey o key ≠ none) :
    ∃ headers, processHeaderOverrideIn go request apiKey o = .ok headers ∧
      ∀ key, ∃ result, comesToIn go sprint request apiKey o key = some result ∧
        ∀ value, headers.lookup key = some value ↔ result = some value ∨
          result = none ∧ Forwards go (Passes go source request) request key value := by
  rcases run_cases apiKey hnorm hnames ho with ⟨h | ⟨key, hkey⟩, -⟩ | ⟨-, hrun⟩
  · exact absurd h hvalid
  · exact absurd hkey (hsome key)
  · exact hrun

include hnorm hnames in
/-- Where a header is refused in some order, there is an error. -/
theorem exists_error (ho : o.Of go sprint source request)
    (hkey : comesToIn go sprint request apiKey o key = none) :
    ∃ message, processHeaderOverrideIn go request apiKey o = .error message := by
  rcases run_cases apiKey hnorm hnames ho with ⟨-, herror⟩ | ⟨-, _, -, hall⟩
  · exact herror
  · obtain ⟨result, hresult, -⟩ := hall key
    exact absurd (hkey.symm.trans hresult) nofun

theorem Settled.eq_none_iff {result' : Option (Option String)}
    (h : Settled go source request key result result') : result = none ↔ result' = none := by
  rcases h with rfl | ⟨value, -, ⟨rfl, rfl⟩ | ⟨rfl, rfl⟩⟩
  · rfl
  · exact iff_of_false nofun nofun
  · exact iff_of_false nofun nofun

include hnames in
theorem forwards_unique {passes : String → Prop} {value value' : String}
    (h : Forwards go passes request key value) (h' : Forwards go passes request key value') :
    value = value' := by
  obtain ⟨name, hname, -, hkey, rfl⟩ := h
  obtain ⟨name', hname', -, hkey', rfl⟩ := h'
  rw [List.inj_on_of_nodup_map hnames hname.1 hname'.1 (hkey.trans hkey'.symm)]

include hnames in
/-- A header that is settled is sent with the same value. -/
theorem Settled.sent_iff {result result' : Option String}
    (h : Settled go source request key (some result) (some result')) (value : String) :
    (result = some value ∨
        result = none ∧ Forwards go (Passes go source request) request key value) ↔
      (result' = some value ∨
        result' = none ∧ Forwards go (Passes go source request) request key value) := by
  rcases h with heq | ⟨sent, hsent, ⟨heq, heq'⟩ | ⟨heq, heq'⟩⟩
  · rw [Option.some.inj heq]
  · obtain rfl := Option.some.inj heq
    obtain rfl := Option.some.inj heq'
    simp only [reduceCtorEq, false_or, true_and, false_and, or_false, Option.some.injEq]
    exact ⟨fun h => forwards_unique hnames hsent h, fun h => h ▸ hsent⟩
  · obtain rfl := Option.some.inj heq
    obtain rfl := Option.some.inj heq'
    simp only [reduceCtorEq, false_or, true_and, false_and, or_false, Option.some.injEq]
    exact ⟨fun h => h ▸ hsent, fun h => forwards_unique hnames hsent h⟩

include hnorm hnames in
/-- An override that is refused in every order follows its rules. -/
theorem follows_of_alwaysRefused (h : AlwaysRefused go sprint source request apiKey) :
    Follows go sprint source request apiKey := by
  have hrefused (o : Orders α) (ho : o.Of go sprint source request) :
      (∃ message, processHeaderOverrideIn go request apiKey o = .error message) ∧
        Refuses go sprint source request apiKey o := by
    rcases h with ⟨hconfigured, hlowered⟩ | ⟨key, hkey⟩
    · refine ⟨?_, .inl hconfigured⟩
      rcases run_cases apiKey hnorm hnames ho with ⟨-, herror⟩ | ⟨hvalid, -⟩
      · exact herror
      · exact absurd hlowered hvalid
    · have hnone := hkey _ (comesToIn_mem ho apiKey key)
      refine ⟨?_, (refuses_iff o).2 (.inr ⟨key, hnone⟩)⟩
      rcases run_cases apiKey hnorm hnames ho with ⟨-, herror⟩ | ⟨-, _, -, hall⟩
      · exact herror
      · obtain ⟨result, hresult, -⟩ := hall key
        exact absurd (hnone.symm.trans hresult) nofun
  have hno {o : Orders α} (ho : o.Of go sprint source request) {headers : GoMap String}
      (hok : processHeaderOverrideIn go request apiKey o = .ok headers) : False := by
    obtain ⟨message, hmessage⟩ := (hrefused o ho).1
    exact nomatch hmessage.symm.trans hok
  refine ⟨fun o ho => iff_of_true (hrefused o ho).1 (hrefused o ho).2,
    fun o ho headers hok => (hno ho hok).elim, fun o ho headers hok => (hno ho hok).elim,
    fun o o' ho ho' => ?_⟩
  obtain ⟨message, hmessage⟩ := (hrefused o ho).1
  obtain ⟨message', hmessage'⟩ := (hrefused o' ho').1
  rw [hmessage, hmessage']
  rfl

/-- The rules pass the same values on, where no explicit override takes the place of the header. -/
theorem Sound.forwards_iff (h : Sound go sprint source request apiKey)
    (hkey : some none ∈ results go sprint source request apiKey key) (value : String) :
    Forwards go (Passes go source request) request key value ↔
      Forwards go (fun name => PassesAll go source request ∨
        MatchesAsConfigured go source request name) request key value := by
  refine exists_congr fun name => ?_
  constructor
  · rintro ⟨hname, hpasses, rfl, rfl⟩
    refine ⟨hname, ?_, rfl, rfl⟩
    by_cases hall : PassesAll go source request
    · exact .inl hall
    · exact .inr ((h.matching name hname hall hkey).1 (hpasses.resolve_left hall))
  · rintro ⟨hname, hpasses, rfl, rfl⟩
    refine ⟨hname, ?_, rfl, rfl⟩
    by_cases hall : PassesAll go source request
    · exact .inl hall
    · exact .inr ((h.matching name hname hall hkey).2 (hpasses.resolve_left hall))

include hnorm hnames in
/-- **A sound override** follows its rules. -/
theorem follows_of_sound (h : Sound go sprint source request apiKey) :
    Follows go sprint source request apiKey := by
  refine ⟨fun o ho => ?_, fun o ho headers hok key value => ?_,
    fun o ho headers hok key hkey => ?_, fun o o' ho ho' => ?_⟩
  · rw [refuses_iff, or_iff_right h.valid.1]
    rcases run_cases apiKey hnorm hnames ho with ⟨hinvalid | hnone, herror⟩ | ⟨-, _, hok, hall⟩
    · exact absurd hinvalid h.valid.2
    · exact iff_of_true herror hnone
    · refine iff_of_false (fun ⟨_, herror⟩ => nomatch herror.symm.trans hok) ?_
      rintro ⟨key, hkey⟩
      obtain ⟨result, hresult, -⟩ := hall key
      exact absurd (hkey.symm.trans hresult) nofun
  · rcases run_cases apiKey hnorm hnames ho with ⟨-, _, herror⟩ | ⟨-, _, hok', hall⟩
    · exact nomatch herror.symm.trans hok
    · obtain rfl := Except.ok.inj (hok.symm.trans hok')
      obtain ⟨result, hresult, hlookup⟩ := hall key
      rw [hlookup, explicitValue_eq, hresult, Option.join_some]
      refine or_congr Iff.rfl (and_congr_right fun hnone => ?_)
      subst hnone
      exact h.forwards_iff (hresult ▸ comesToIn_mem ho apiKey key) value
  · rcases run_cases apiKey hnorm hnames ho with ⟨-, _, herror⟩ | ⟨-, _, hok', hall⟩
    · exact nomatch herror.symm.trans hok
    · obtain rfl := Except.ok.inj (hok.symm.trans hok')
      obtain ⟨result, hresult, hlookup⟩ := hall key
      rw [explicitValue_eq, hresult, Option.join_some]
      refine Option.ext fun value => (hlookup value).trans (or_iff_left ?_)
      rintro ⟨rfl, name, hname, hpasses, rfl, -⟩
      exact h.guarded name hname hkey (hresult ▸ comesToIn_mem ho apiKey _) hpasses
  · have hsettled (key : String) :=
      h.settled key _ (comesToIn_mem ho apiKey key) _ (comesToIn_mem ho' apiKey key)
    by_cases hnone : ∃ key, comesToIn go sprint request apiKey o key = none
    · -- a header that is refused in one order is refused in the other
      obtain ⟨key, hkey⟩ := hnone
      obtain ⟨message, hmessage⟩ := exists_error hnorm hnames ho hkey
      obtain ⟨message', hmessage'⟩ :=
        exists_error hnorm hnames ho' ((hsettled key).eq_none_iff.1 hkey)
      rw [hmessage, hmessage']
      rfl
    · have hsome (key : String) : comesToIn go sprint request apiKey o key ≠ none :=
        fun hkey => hnone ⟨key, hkey⟩
      obtain ⟨headers, hok, hall⟩ := exists_headers hnorm hnames ho h.valid.2 hsome
      obtain ⟨headers', hok', hall'⟩ := exists_headers hnorm hnames ho' h.valid.2
        fun key => mt (hsettled key).eq_none_iff.2 (hsome key)
      rw [hok, hok']
      refine congrArg some (funext fun key => Option.ext fun value => ?_)
      obtain ⟨result, hresult, hlookup⟩ := hall key
      obtain ⟨result', hresult', hlookup'⟩ := hall' key
      have hset := hsettled key
      rw [hresult, hresult'] at hset
      exact (hlookup value).trans ((hset.sent_iff hnames value).trans (hlookup' value).symm)

include hnorm hnames in
/-- **An override that follows its rules** is refused in every order, or is sound. -/
theorem sound_of_follows (h : Follows go sprint source request apiKey) :
    AlwaysRefused go sprint source request apiKey ∨ Sound go sprint source request apiKey := by
  by_cases hrefused : AlwaysRefused go sprint source request apiKey
  · exact .inl hrefused
  refine .inr ?_
  rw [AlwaysRefused, not_or, not_exists] at hrefused
  have hothers (key : String) :
      ∃ result ∈ results go sprint source request apiKey key, result ≠ none := by
    have hno := hrefused.2 key
    push Not at hno
    exact hno
  -- any result of a header that is not refused is that of an order without errors
  have hvalid : ¬SomeInvalid go (configuredPattern go) source request ∧
      ¬SomeInvalid go (loweredPattern go) source request := by
    obtain ⟨result, hresult, hsome⟩ := hothers ""
    obtain ⟨o, ho, hself, hrest⟩ := exists_order hresult hothers
    have hall (key : String) : comesToIn go sprint request apiKey o key ≠ none := by
      by_cases hkey : key = ""
      · rw [hkey, hself]
        exact hsome
      · exact hrest key hkey
    have hiff := (h.error o ho).trans ((refuses_iff o).trans (or_iff_left (not_exists.2 hall)))
    rcases run_cases apiKey hnorm hnames ho with ⟨hinvalid | ⟨key, hkey⟩, herror⟩ | ⟨hno, _, hok, -⟩
    · exact absurd ⟨hiff.1 herror, hinvalid⟩ hrefused.1
    · exact absurd hkey (hall key)
    · refine ⟨fun hconfigured => ?_, hno⟩
      obtain ⟨message, hmessage⟩ := hiff.2 hconfigured
      cases hmessage.symm.trans hok
  have hrun {key : String} {result : Option String}
      (hresult : some result ∈ results go sprint source request apiKey key) :
      ∃ o : Orders α, o.Of go sprint source request ∧
        comesToIn go sprint request apiKey o key = some result ∧
        ∃ headers, processHeaderOverrideIn go request apiKey o = .ok headers ∧
          ∀ value, headers.lookup key = some value ↔ result = some value ∨
            result = none ∧ Forwards go (Passes go source request) request key value := by
    obtain ⟨o, ho, hself, hrest⟩ := exists_order hresult hothers
    have hall (key' : String) : comesToIn go sprint request apiKey o key' ≠ none := by
      by_cases hkey : key' = key
      · rw [hkey, hself]
        exact Option.some_ne_none result
      · exact hrest key' hkey
    obtain ⟨headers, hok, hheaders⟩ := exists_headers hnorm hnames ho hvalid.2 hall
    obtain ⟨result', hresult', hlookup⟩ := hheaders key
    obtain rfl := Option.some.inj (hself.symm.trans hresult')
    exact ⟨o, ho, hself, headers, hok, hlookup⟩
  refine ⟨hvalid, fun name hname hall hkey => ?_, fun name hname hguarded hkey hpasses => ?_,
    fun key result hresult result' hresult' => ?_⟩
  · obtain ⟨o, ho, hself, headers, hok, hlookup⟩ := hrun hkey
    have hsent := h.sent o ho headers hok (go.toLower (trimSpace name))
      (trimSpace (request.headerGet name))
    rw [hlookup, explicitValue_eq, hself, Option.join_some, forwards_iff hnames hname,
      forwards_iff hnames hname] at hsent
    simpa [Passes, hall] using hsent
  · obtain ⟨o, ho, hself, headers, hok, hlookup⟩ := hrun hkey
    have hnone := h.guarded o ho headers hok _ hguarded
    rw [explicitValue_eq, hself, Option.join_some] at hnone
    have hsome := (hlookup (trimSpace (request.headerGet name))).2
      (.inr ⟨rfl, (forwards_iff hnames hname).2 hpasses⟩)
    exact absurd (hnone.symm.trans hsome) (Option.some_ne_none _).symm
  · -- an order with an error and one without would differ
    have hdiffer {result : Option String}
        (hnone : none ∈ results go sprint source request apiKey key)
        (hsome : some result ∈ results go sprint source request apiKey key) : False := by
      obtain ⟨o, ho, hself, -⟩ := exists_order hnone hothers
      obtain ⟨message, hmessage⟩ := exists_error hnorm hnames ho hself
      obtain ⟨o', ho', -, headers, hok, -⟩ := hrun hsome
      have hsame := h.same o o' ho ho'
      rw [hmessage, hok] at hsame
      cases hsame
    rcases result with _ | result <;> rcases result' with _ | result'
    · exact .inl rfl
    · exact (hdiffer hresult hresult').elim
    · exact (hdiffer hresult' hresult).elim
    · obtain ⟨o, ho, -, headers, hok, hlookup⟩ := hrun hresult
      obtain ⟨o', ho', -, headers', hok', hlookup'⟩ := hrun hresult'
      have hsame := h.same o o' ho ho'
      rw [hok, hok'] at hsame
      have hkey : headers.lookup key = headers'.lookup key :=
        congrFun (Option.some.inj hsame) key
      rw [hkey] at hlookup
      have hiff (value : String) := (hlookup value).symm.trans (hlookup' value)
      rcases result with _ | value <;> rcases result' with _ | value'
      · exact .inl rfl
      · have hsent := (hiff value').2 (.inl rfl)
        exact .inr ⟨value', (hsent.resolve_left (Option.some_ne_none _).symm).2, .inl ⟨rfl, rfl⟩⟩
      · have hsent := (hiff value).1 (.inl rfl)
        exact .inr ⟨value, (hsent.resolve_left (Option.some_ne_none _).symm).2, .inr ⟨rfl, rfl⟩⟩
      · have hsent := (hiff value).1 (.inl rfl)
        exact .inl (congrArg some (hsent.resolve_right fun h => Option.some_ne_none _ h.1).symm)

end AllOrders

/-- **Header passthrough follows its rules** if and only if the override is refused in every order
or sound: for every override, every set of headers and all orders of the maps. -/
theorem processHeaderOverride_iff (hnorm : Stable go) (hnames : DistinctNames go request) :
    Follows go sprint source request apiKey ↔
      AlwaysRefused go sprint source request apiKey ∨ Sound go sprint source request apiKey := by
  refine ⟨sound_of_follows hnorm hnames, ?_⟩
  rintro (h | h)
  · exact follows_of_alwaysRefused hnorm hnames h
  · exact follows_of_sound hnorm hnames h

/-! ### A pattern with a capital letter -/

/-- Expressions for the start of a name. -/
def compileStart (pattern : String) : Option (String → Bool) :=
  if startsWith pattern "^" then
    some fun name => startsWith name (String.ofList (pattern.toList.drop 1))
  else none

def traceLibs : Libs Unit := { plainLibs with compile := compileStart }

/-- The client sends one header. -/
def traceRequest : ClientRequest :=
  { plainRequest with
    headerNames := ["X-Trace-Id"]
    headerGet := fun name => if name = "X-Trace-Id" then "1" else "" }

/-- The override has one rule. -/
def traceOverride : GoMap Value := AList.singleton "re:^X-Trace" (.string "")

theorem stable_traceLibs : Stable traceLibs := by
  intro key
  have hlower (s : String) : traceLibs.toLower s = toLower s := rfl
  rw [normalizeHeaderContextKey, normalizeHeaderContextKey, hlower, hlower,
    toLower_trimSpace_toLower, trimSpace_trimSpace]

theorem distinctNames_traceRequest : DistinctNames traceLibs traceRequest := by
  rw [DistinctNames]
  exact List.nodup_singleton _

theorem processHeaderOverride_trace :
    Follows traceLibs Value.sprint traceOverride traceRequest "" ↔
      AlwaysRefused traceLibs Value.sprint traceOverride traceRequest "" ∨
        Sound traceLibs Value.sprint traceOverride traceRequest "" :=
  processHeaderOverride_iff stable_traceLibs distinctNames_traceRequest

theorem plainOrders_of (go : Libs B) (sprint : α → String) (source : GoMap α)
    (request : ClientRequest) :
    (plainOrders go sprint source request).Of go sprint source request :=
  ⟨.refl _, .refl _, .refl _, .refl _⟩

/-- The rule matches the name of the header as it stands. -/
theorem forwards_trace : Forwards traceLibs (fun name =>
    PassesAll traceLibs traceOverride traceRequest ∨
      MatchesAsConfigured traceLibs traceOverride traceRequest name)
    traceRequest "x-trace-id" "1" := by
  have hstart : startsWith "^X-Trace" "^" = true := by decide +kernel
  have hcompile : traceLibs.compile "^X-Trace" =
      some fun name => startsWith name (String.ofList ("^X-Trace".toList.drop 1)) := by
    change compileStart "^X-Trace" = _
    rw [compileStart, if_pos hstart]
  refine ⟨"X-Trace-Id", ⟨List.mem_singleton_self _, by decide +kernel, by decide +kernel⟩,
    .inr ⟨rfl, "re:^X-Trace", List.mem_singleton_self _, "^X-Trace", by decide +kernel, _, hcompile,
      "X-Trace-Id", rfl, by decide +kernel⟩, by decide +kernel, by decide +kernel⟩

/-- **The header is not passed on**: in lower case the pattern does not match its name. -/
theorem not_follows_trace :
    (processHeaderOverrideIn traceLibs traceRequest ""
        (plainOrders traceLibs Value.sprint traceOverride traceRequest)).toOption.map
          (fun headers => headers.lookup "x-trace-id") = some none ∧
      ¬Follows traceLibs Value.sprint traceOverride traceRequest "" := by
  have hrun : (processHeaderOverrideIn traceLibs traceRequest ""
      (plainOrders traceLibs Value.sprint traceOverride traceRequest)).toOption.map
        (fun headers => headers.lookup "x-trace-id") = some none := by
    decide +kernel
  refine ⟨hrun, fun h => ?_⟩
  have horders := plainOrders_of traceLibs Value.sprint traceOverride traceRequest
  have hexplicit : explicitValue traceLibs Value.sprint traceRequest ""
      (plainOrders traceLibs Value.sprint traceOverride traceRequest) "x-trace-id" = none := by
    decide +kernel
  have hsent := h.sent _ horders
  generalize processHeaderOverrideIn traceLibs traceRequest ""
    (plainOrders traceLibs Value.sprint traceOverride traceRequest) = result at hrun hsent
  cases result with
  | error message => exact nomatch hrun
  | ok headers =>
    have hone := (hsent headers rfl "x-trace-id" "1").2 (.inr ⟨hexplicit, forwards_trace⟩)
    exact nomatch (Option.some.inj hrun).symm.trans hone

end NewApiPool.Relay.HeaderPassthrough
