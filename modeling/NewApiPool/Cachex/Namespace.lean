import NewApiPool.Lib.GoText

/-!
# Keys in a namespace

The keys of a cache lie among those of others, behind the name of the cache and a colon. A key is
trimmed, and is given the name unless it has it already; so a full key is its own
(`fullKey_fullKey`).
-/

namespace NewApiPool.Cachex

open GoText

abbrev Text := List Char

def trimText (s : Text) : Text := ((s.dropWhile isSpace).reverse.dropWhile isSpace).reverse

/-- `strings.TrimLeft(s, ":")`. -/
def trimLeft (s : Text) : Text := s.dropWhile (· == ':')

/-- `Namespace.prefix`. -/
def namespacePrefix (n : Text) : Text :=
  let ns := ((trimText n).reverse.dropWhile (· == ':')).reverse
  if ns = [] then [] else ns ++ [':']

def fullKey (n key : Text) : Text :=
  let key := trimText key
  if key = [] then []
  else
    let p := namespacePrefix n
    if p = [] then trimLeft key
    else if p <+: key then key
    else p ++ trimLeft key

def matchPattern (n : Text) : Text := namespacePrefix n ++ ['*']

variable {n s key k : Text} {c : Char} {ks : List Text}

/-! ### Trimmed text -/

theorem trimText_concat (hc : isSpace c = false) :
    trimText (s ++ [c]) = (s ++ [c]).dropWhile isSpace := by
  have hdrop : ∃ l, (s ++ [c]).dropWhile isSpace = l ++ [c] := by
    rw [List.dropWhile_append]
    split
    · exact ⟨[], by rw [List.dropWhile_cons_of_neg (by rw [hc]; exact Bool.false_ne_true)]; rfl⟩
    · exact ⟨_, rfl⟩
  obtain ⟨l, hl⟩ := hdrop
  rw [trimText, hl, List.reverse_append, List.reverse_singleton, List.singleton_append,
    List.dropWhile_cons_of_neg (by rw [hc]; exact Bool.false_ne_true), List.reverse_cons,
    List.reverse_reverse]

/-- Text that was trimmed ends with a character that is not a space. -/
theorem exists_concat_of_trimText (h : trimText s = s) (hne : s ≠ []) :
    ∃ l c, s = l ++ [c] ∧ isSpace c = false := by
  rw [trimText] at h
  generalize hl : (s.dropWhile isSpace).reverse.dropWhile isSpace = l at h
  cases l with
  | nil => exact absurd h.symm hne
  | cons c l =>
    refine ⟨l.reverse, c, by rw [← h, List.reverse_cons], ?_⟩
    have hhead := List.head?_dropWhile_not isSpace (s.dropWhile isSpace).reverse
    rw [hl] at hhead
    exact hhead

theorem trimText_of_forall (h : ∀ c ∈ s, isSpace c = false) : trimText s = s := by
  have hstring := trimSpace_of_forall (s := String.ofList s) (by rwa [String.toList_ofList])
  rw [trimSpace, String.toList_ofList] at hstring
  exact String.ofList_injective hstring

theorem dropWhile_of_head {p : Char → Bool} (h : ∀ c, s.head? = some c → p c = false) :
    s.dropWhile p = s := by
  cases s with
  | nil => rfl
  | cons c s => exact List.dropWhile_cons_of_neg (by rw [h c rfl]; exact Bool.false_ne_true)

/-- What is dropped from the beginning makes a text shorter. -/
theorem head_of_dropWhile {p : Char → Bool} (h : s.dropWhile p = s) (hc : s.head? = some c) :
    p c = false := by
  have hhead := List.head?_dropWhile_not p s
  rw [h, hc] at hhead
  exact hhead

theorem trimText_trimText (s : Text) : trimText (trimText s) = trimText s := by
  have hstring := trimSpace_trimSpace (String.ofList s)
  rw [trimSpace, trimSpace, String.toList_ofList, String.toList_ofList] at hstring
  exact String.ofList_injective hstring

theorem trimText_eq_self (hhead : ∀ c, s.head? = some c → isSpace c = false)
    (hlast : ∀ c, s.getLast? = some c → isSpace c = false) : trimText s = s := by
  have hreverse : s.reverse.dropWhile isSpace = s.reverse :=
    dropWhile_of_head fun c hc => hlast c (List.head?_reverse ▸ hc)
  rw [trimText, dropWhile_of_head hhead, hreverse, List.reverse_reverse]

theorem head_of_trimText (h : trimText s = s) {c : Char} (hc : s.head? = some c) :
    isSpace c = false := by
  refine head_of_dropWhile ((List.dropWhile_suffix isSpace).eq_of_length ?_) hc
  have hlength := congrArg List.length h
  have hleft := (List.dropWhile_suffix isSpace (l := s)).length_le
  have hright := (List.dropWhile_suffix isSpace (l := (s.dropWhile isSpace).reverse)).length_le
  rw [trimText, List.length_reverse] at hlength
  rw [List.length_reverse] at hright
  omega

theorem last_of_trimText (h : trimText s = s) {c : Char} (hc : s.getLast? = some c) :
    isSpace c = false := by
  have hne : s ≠ [] := by
    rintro rfl
    cases hc
  obtain ⟨l, d, rfl, hd⟩ := exists_concat_of_trimText h hne
  rw [List.getLast?_concat] at hc
  obtain rfl := Option.some.inj hc
  exact hd

/-! ### Full keys -/

/-- A prefix begins as the trimmed name does, and ends in a colon. -/
theorem exists_namespacePrefix (hn : namespacePrefix n ≠ []) :
    ∃ ns, namespacePrefix n = ns ++ [':'] ∧ ns ≠ [] ∧ ns <+: trimText n := by
  rw [namespacePrefix] at hn ⊢
  split_ifs at hn ⊢ with hns
  · exact absurd rfl hn
  · refine ⟨_, rfl, hns, ?_⟩
    rw [← List.reverse_suffix, List.reverse_reverse]
    exact List.dropWhile_suffix _

theorem head_namespacePrefix (hn : namespacePrefix n ≠ []) {c : Char}
    (hc : (namespacePrefix n).head? = some c) : isSpace c = false := by
  obtain ⟨ns, heq, hne, hstarts⟩ := exists_namespacePrefix hn
  refine head_of_trimText (trimText_trimText n) ?_
  rw [heq, List.head?_append_of_ne_nil _ hne] at hc
  obtain ⟨t, ht⟩ := hstarts
  rw [← ht, List.head?_append_of_ne_nil _ hne, hc]

theorem prefix_fullKey (hn : namespacePrefix n ≠ []) (h : fullKey n key ≠ []) :
    namespacePrefix n <+: fullKey n key := by
  rw [fullKey] at h ⊢
  dsimp only at h ⊢
  split_ifs at h ⊢ with hkey hstart
  · exact absurd rfl h
  · exact hstart
  · exact List.prefix_append _ _

/-- **A full key** is its own. -/
theorem fullKey_fullKey (hn : namespacePrefix n ≠ []) (key : Text) :
    fullKey n (fullKey n key) = fullKey n key := by
  by_cases h : fullKey n key = []
  · rw [h]
    rfl
  obtain ⟨t, ht⟩ := prefix_fullKey hn h
  -- nothing is trimmed: the namespace begins with no blank, and the key ends with none
  have htrim : trimText (fullKey n key) = fullKey n key := by
    refine trimText_eq_self (fun c hc => head_namespacePrefix hn ?_) fun c hc => ?_
    · rwa [← ht, List.head?_append_of_ne_nil _ hn] at hc
    · rw [fullKey, if_neg hn] at h hc
      split_ifs at h hc with hkey hstart
      · exact absurd rfl h
      · exact last_of_trimText (trimText_trimText key) hc
      · obtain ⟨ns, heq, -, -⟩ := exists_namespacePrefix hn
        by_cases hleft : trimLeft (trimText key) = []
        · rw [hleft, List.append_nil, heq, List.getLast?_concat] at hc
          obtain rfl := Option.some.inj hc
          rfl
        · rw [List.getLast?_append_of_ne_nil _ hleft] at hc
          refine last_of_trimText (trimText_trimText key) ?_
          obtain ⟨colons, hcolons⟩ : trimLeft (trimText key) <:+ trimText key :=
            List.dropWhile_suffix _
          rw [← hcolons, List.getLast?_append_of_ne_nil _ hleft]
          exact hc
  rw [fullKey, htrim]
  rw [if_neg h, if_neg hn, if_pos ⟨t, ht⟩]

theorem fullKeys_eq_self (h : ∀ k ∈ ks, fullKey n k = k ∧ k ≠ []) :
    (ks.map (fullKey n)).filter (· ≠ []) = ks := by
  rw [List.map_congr_left fun k hk => (h k hk).1, List.map_id']
  exact List.filter_eq_self.mpr fun k hk => decide_eq_true (h k hk).2

end NewApiPool.Cachex
