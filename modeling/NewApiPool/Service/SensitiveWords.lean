import NewApiPool.Lib.Cuts
import NewApiPool.Lib.Utf8
import Mathlib.Data.Set.Defs
import Mathlib.Data.List.Dedup
import Mathlib.Data.List.Pairwise

/-!
# The replacement of sensitive words

`SensitiveWordReplace` searches the lower-cased text for the words, and writes a marker for each
hit into the text. The search gives the hits with the places of their runes in the lower-cased text;
the text is sliced in bytes, at these places and behind as many bytes as the word has. So the right
characters are replaced where every character before a hit takes one byte and a hit has as many
bytes as its word, and the slices are in order where no two hits overlap
(`NewApiPool.SensitiveWords.replaces_iff`).

The search of the library is a parameter, and so is the lower case of a rune.
-/

namespace NewApiPool.SensitiveWords

open Utf8 Cuts

/-- A hit: `goahocorasick.Term`. -/
structure Term where
  pos : ℕ
  word : List ℕ
  deriving DecidableEq

/-! ### The code -/

/-- `unicode.IsSpace` -/
def isSpace (r : ℕ) : Bool :=
  r ∈ [0x09, 0x0A, 0x0B, 0x0C, 0x0D, 0x20, 0x85, 0xA0, 0x1680, 0x2028, 0x2029, 0x202F, 0x205F,
    0x3000] || (0x2000 ≤ r && r ≤ 0x200A)

/-- `strings.TrimSpace`, on runes. -/
def trimSpace (runes : List ℕ) : List ℕ :=
  ((runes.dropWhile isSpace).reverse.dropWhile isSpace).reverse

/-- The marker `**###**`. -/
def marker : List UInt8 := [0x2A, 0x2A, 0x23, 0x23, 0x23, 0x2A, 0x2A]

/-- `text[i:j]`, which panics where the bounds are not in order and in the text. -/
def slice (text : List UInt8) (i j : ℕ) : Option (List UInt8) :=
  if i ≤ j ∧ j ≤ text.length then some ((text.take j).drop i) else none

/-- The loop over the hits, and the rest of the text behind it. -/
def write (text : List UInt8) : ℕ → List Term → Option (List UInt8)
  | lastPos, [] => slice text lastPos text.length
  | lastPos, hit :: hits =>
    (slice text lastPos hit.pos).bind fun before =>
      (write text (hit.pos + (encode hit.word).length) hits).map fun rest =>
        before ++ marker ++ rest

section

-- `toLower` is `unicode.ToLower`. The library searches the runes of a text with a machine, which is
-- `nil` or has its keywords here; its search may panic.
variable (toLower : ℕ → ℕ)
  (multiPatternSearch : Option (List (List ℕ)) → List ℕ → Bool → Option (List Term))

/-- `[]rune(strings.ToLower(s))`: it goes from rune to rune. -/
def lowerRunes (s : List UInt8) : List ℕ := (runeList s).map toLower

def readRunes (dict : List (List UInt8)) : List (List ℕ) :=
  dict.map fun word => trimSpace (lowerRunes toLower word)

def IsBlank (word : List UInt8) : Prop := trimSpace (runeList word) = []

instance : DecidablePred IsBlank := fun word =>
  inferInstanceAs (Decidable (trimSpace (runeList word) = []))

/-- The machine of the words; there is none when every word is blank. -/
def getOrBuildAC (dict : List (List UInt8)) : Option (List (List ℕ)) :=
  if ∀ word ∈ dict, IsBlank word then none else some (readRunes toLower dict)

/-- `SensitiveWordReplace`: whether there was a hit, the words and the text; `none` where it
panics. -/
def sensitiveWordReplace (dict : List (List UInt8)) (text : List UInt8)
    (returnImmediately : Bool) : Option (Bool × List (List UInt8) × List UInt8) :=
  if dict = [] then some (false, [], text)
  else (multiPatternSearch (getOrBuildAC toLower dict) (lowerRunes toLower text)
      returnImmediately).bind fun hits =>
    if hits = [] then some (false, [], text)
    else (write text 0 hits).map fun out => (true, hits.map fun hit => encode hit.word, out)

end

/-! ### What is kept -/

/-- The bytes that are left out for a hit. -/
def cut (hit : Term) : ℕ × ℕ := (hit.pos, hit.pos + (encode hit.word).length)

/-- The stretches of the text that the loop writes as they are. -/
def stretches (text : List UInt8) (hits : List Term) : Option (List (ℕ × ℕ)) :=
  keep text.length 0 (hits.map cut)

def part (text : List UInt8) (p : ℕ × ℕ) : List UInt8 := (text.take p.2).drop p.1

/-- The stretches with the marker between them. -/
def marked (text : List UInt8) : List (ℕ × ℕ) → List UInt8
  | [] => []
  | [p] => part text p
  | p :: q :: kept => part text p ++ marker ++ marked text (q :: kept)

variable {text : List UInt8} {hits : List Term} {last i j n k : ℕ} {kept : List (ℕ × ℕ)}

theorem marked_cons (p : ℕ × ℕ) (h : kept ≠ []) :
    marked text (p :: kept) = part text p ++ marker ++ marked text kept := by
  obtain ⟨q, rest, rfl⟩ := List.exists_cons_of_ne_nil h
  rfl

/-- **The loop writes the stretches** and the markers, or it panics where a cut is not behind the
one before. -/
theorem write_eq (text : List UInt8) (last : ℕ) (hits : List Term) :
    write text last hits = (keep text.length last (hits.map cut)).map (marked text) := by
  induction hits generalizing last with
  | nil =>
    rw [write, slice, List.map_nil, keep]
    by_cases h : last ≤ text.length
    · rw [if_pos ⟨h, Nat.le_refl _⟩, if_pos h]
      rfl
    · rw [if_neg fun hb => h hb.1, if_neg h]
      rfl
  | cons hit hits ih =>
    rw [write, ih, List.map_cons, keep, slice]
    by_cases h : last ≤ hit.pos ∧ hit.pos ≤ text.length
    · rw [if_pos h, if_pos (show last ≤ (cut hit).1 ∧ (cut hit).1 ≤ text.length from h),
        Option.bind_some, Option.map_map, Option.map_map]
      cases hkeep : keep text.length (cut hit).2 (hits.map cut) with
      | none =>
        rw [show hit.pos + (encode hit.word).length = (cut hit).2 from rfl, hkeep]
        rfl
      | some kept =>
        rw [show hit.pos + (encode hit.word).length = (cut hit).2 from rfl, hkeep]
        exact congrArg some (marked_cons (last, hit.pos) (ne_nil_of_keep hkeep)).symm
    · rw [if_neg h, if_neg (show ¬(last ≤ (cut hit).1 ∧ (cut hit).1 ≤ text.length) from h)]
      rfl

/-! ### What the library promises -/

/-- Where a word that is not blank is in the text. -/
structure Occurs (keywords : List (List ℕ)) (content : List ℕ) (t : Term) : Prop where
  mem : t.word ∈ keywords
  ne_nil : t.word ≠ []
  here : t.word <+: content.drop t.pos

def Term.stop (t : Term) : ℕ := t.pos + t.word.length

/-- **The search**: every occurrence once, in the order of where they end. -/
structure Reports (keywords : List (List ℕ)) (content : List ℕ) (hits : List Term) : Prop where
  mem_iff : ∀ t, t ∈ hits ↔ Occurs keywords content t
  nodup : hits.Nodup
  ordered : hits.Pairwise fun t t' => t.stop ≤ t'.stop

/-- What the library promises of its search. -/
def Promised (multiPatternSearch : Option (List (List ℕ)) → List ℕ → Bool → Option (List Term)) :
    Prop :=
  ∀ keywords content, ∃ hits,
    multiPatternSearch (some keywords) content false = some hits ∧ Reports keywords content hits

/-- All occurrences, by where they end. -/
def occurrences (keywords : List (List ℕ)) (content : List ℕ) : List Term :=
  (List.range (content.length + 1)).flatMap fun stop =>
    (keywords.dedup.filter fun w => w ≠ [] ∧ w <:+ content.take stop).map fun w =>
      ⟨stop - w.length, w⟩

variable {keywords : List (List ℕ)} {content w : List ℕ} {t : Term}

theorem mem_occurrences_iff : t ∈ occurrences keywords content ↔
    ∃ stop ≤ content.length, t.word ∈ keywords ∧ t.word ≠ [] ∧ t.word <:+ content.take stop ∧
      t.pos = stop - t.word.length := by
  simp only [occurrences, List.mem_flatMap, List.mem_range, Nat.lt_succ_iff, List.mem_map,
    List.mem_filter, List.mem_dedup, decide_eq_true_eq]
  constructor
  · rintro ⟨stop, hstop, w, ⟨hmem, hne, hend⟩, rfl⟩
    exact ⟨stop, hstop, hmem, hne, hend, rfl⟩
  · rintro ⟨stop, hstop, hmem, hne, hend, hpos⟩
    exact ⟨stop, hstop, t.word, ⟨hmem, hne, hend⟩, by rw [← hpos]⟩

theorem stop_of_mem {stop : ℕ} (ht : t ∈ (keywords.dedup.filter fun w =>
    w ≠ [] ∧ w <:+ content.take stop).map fun w => Term.mk (stop - w.length) w) :
    stop = t.stop := by
  obtain ⟨w, hw, rfl⟩ := List.mem_map.1 ht
  obtain ⟨-, hend⟩ := of_decide_eq_true (List.mem_filter.1 hw).2
  have hlen := hend.length_le
  rw [List.length_take] at hlen
  change stop = stop - w.length + w.length
  omega

theorem reports_occurrences (keywords : List (List ℕ)) (content : List ℕ) :
    Reports keywords content (occurrences keywords content) where
  mem_iff t := by
    rw [mem_occurrences_iff]
    constructor
    · rintro ⟨stop, hstop, hmem, hne, ⟨l, hl⟩, hpos⟩
      have hlen := congrArg List.length hl
      rw [List.length_append, List.length_take, Nat.min_eq_left hstop] at hlen
      have hstart : t.pos = l.length := by omega
      refine ⟨hmem, hne, content.drop stop, ?_⟩
      conv_rhs => rw [← List.take_append_drop stop content, ← hl]
      rw [hstart, List.append_assoc, List.drop_left]
    · rintro ⟨hmem, hne, q, hq⟩
      have hlen := congrArg List.length hq
      rw [List.length_append, List.length_drop] at hlen
      have hpos := List.length_pos_of_ne_nil hne
      refine ⟨t.stop, by rw [Term.stop]; omega, hmem, hne, ⟨content.take t.pos, ?_⟩,
        (Nat.add_sub_cancel _ _).symm⟩
      rw [Term.stop, List.take_add, ← hq, List.take_left]
  nodup := by
    refine List.nodup_flatMap.2 ⟨fun stop _ => ?_, ?_⟩
    · refine ((List.nodup_dedup keywords).filter _).map_on fun w _ w' _ heq => ?_
      exact (Term.mk.injEq _ _ _ _ ▸ heq).2
    · refine List.nodup_range.imp_of_mem fun hstop hstop' hne => ?_
      refine List.disjoint_left.2 fun t ht ht' => ?_
      rw [stop_of_mem ht, stop_of_mem ht'] at hne
      exact hne rfl
  ordered := by
    refine List.pairwise_flatMap.2 ⟨fun stop _ => ?_, ?_⟩
    · exact List.pairwise_of_forall_mem_list fun t ht t' ht' =>
        ((stop_of_mem ht).symm.trans (stop_of_mem ht')).le
    · refine List.pairwise_lt_range.imp_of_mem fun hstop hstop' hlt t ht t' ht' => ?_
      rw [← stop_of_mem ht, ← stop_of_mem ht']
      exact hlt.le

/-! ### Where the replacement is right -/

section

variable (toLower : ℕ → ℕ) (dict : List (List UInt8)) (text : List UInt8)

def Hit (t : Term) : Prop := Occurs (readRunes toLower dict) (lowerRunes toLower text) t

/-- Every character before a hit takes one byte. -/
def Plain : Prop := ∀ t, Hit toLower dict text t → ∀ c ∈ (chars text).take t.pos, c.length = 1

/-- No two hits overlap: of any two, one ends where the other begins or before it. -/
def Apart : Prop :=
  ∀ t t', Hit toLower dict text t → Hit toLower dict text t' → t ≠ t' →
    t.stop ≤ t'.pos ∨ t'.stop ≤ t.pos

/-- A hit has as many bytes in the text as its word. -/
def SameBytes : Prop :=
  ∀ t, Hit toLower dict text t →
    (((chars text).drop t.pos).take t.word.length).flatten.length = (encode t.word).length

/-- Where the bytes of the character `k` are. -/
def bytesOf (k : ℕ) : ℕ × ℕ := (Pieces.place runeWidth text k, Pieces.place runeWidth text (k + 1))

/-- **What is kept is right**: it is the text without some characters, each of them in a hit, and no
word occurs in it. -/
structure Exact (kept : List (ℕ × ℕ)) : Prop where
  removed : ∃ removed : Set ℕ,
    (∀ k ∈ removed, ∃ t, Hit toLower dict text t ∧ t.pos ≤ k ∧ k < t.stop) ∧
      ∀ k < (chars text).length, ∀ i, Within (bytesOf text k) i →
        ((∃ r ∈ kept, Within r i) ↔ k ∉ removed)
  clean : ∀ r ∈ kept, ∀ w ∈ readRunes toLower dict, w ≠ [] →
    ¬w <:+: lowerRunes toLower (part text r)

/-- **The replacement**: it does not panic, it writes the stretches with the markers between them,
and what it keeps is right. -/
def Replaces (multiPatternSearch : Option (List (List ℕ)) → List ℕ → Bool → Option (List Term)) :
    Prop :=
  ∃ hits kept,
    multiPatternSearch (getOrBuildAC toLower dict) (lowerRunes toLower text) false = some hits ∧
    stretches text hits = some kept ∧
    sensitiveWordReplace toLower multiPatternSearch dict text false =
      some (decide (hits ≠ []), hits.map fun hit => encode hit.word, marked text kept) ∧
    Exact toLower dict text kept

end

variable {toLower : ℕ → ℕ} {dict : List (List UInt8)} {t' : Term} {a b : ℕ}
  {multiPatternSearch : Option (List (List ℕ)) → List ℕ → Bool → Option (List Term)}
  {returnImmediately : Bool}

theorem getOrBuildAC_eq (h : ∃ word ∈ dict, ¬IsBlank word) :
    getOrBuildAC toLower dict = some (readRunes toLower dict) := by
  obtain ⟨word, hmem, hword⟩ := h
  exact if_neg fun hall => hword (hall word hmem)

/-- **The replacement in terms of the stretches.** -/
theorem sensitiveWordReplace_eq (hdict : dict ≠ [])
    (h : multiPatternSearch (getOrBuildAC toLower dict) (lowerRunes toLower text)
      returnImmediately = some hits) :
    sensitiveWordReplace toLower multiPatternSearch dict text returnImmediately =
      (stretches text hits).map fun kept =>
        (decide (hits ≠ []), hits.map fun hit => encode hit.word, marked text kept) := by
  rw [sensitiveWordReplace, if_neg hdict, h, Option.bind_some]
  by_cases hnil : hits = []
  · subst hnil
    have hkeep : stretches text [] = some [(0, text.length)] :=
      keep_nil_eq_some_iff.2 ⟨Nat.zero_le _, rfl⟩
    rw [if_pos rfl, hkeep, Option.map_some, marked, part, List.take_length]
    rfl
  · rw [if_neg hnil, write_eq, Option.map_map, decide_eq_true hnil]
    rfl

theorem length_lowerRunes (toLower : ℕ → ℕ) (text : List UInt8) :
    (lowerRunes toLower text).length = (chars text).length := by
  rw [lowerRunes, runeList, List.length_map, List.length_map]

theorem Occurs.stop_le (h : Occurs keywords content t) : t.stop ≤ content.length := by
  have hlen := h.here.length_le
  have hpos := List.length_pos_of_ne_nil h.ne_nil
  rw [List.length_drop] at hlen
  rw [Term.stop]
  omega

theorem Occurs.pos_lt_stop (h : Occurs keywords content t) : t.pos < t.stop :=
  Nat.lt_add_of_pos_right (List.length_pos_of_ne_nil h.ne_nil)

theorem Hit.stop_le (h : Hit toLower dict text t) : t.stop ≤ (chars text).length :=
  length_lowerRunes toLower text ▸ Occurs.stop_le h

theorem cut_le (t : Term) : (cut t).1 ≤ (cut t).2 := Nat.le_add_right _ _

theorem stop_le_cut (t : Term) : t.stop ≤ (cut t).2 :=
  Nat.add_le_add_left (length_le_encode t.word) t.pos

/-- **The runes of a part** between characters. -/
theorem lowerRunes_part (a b : ℕ) :
    lowerRunes toLower (part text (Pieces.place runeWidth text a, Pieces.place runeWidth text b)) =
      ((lowerRunes toLower text).take b).drop a := by
  rw [lowerRunes, runeList, chars, part, lawful_runeWidth.split_between, lowerRunes, runeList,
    chars, List.map_drop, List.map_take, List.map_drop, List.map_take]

theorem exists_of_infix_between {l : List ℕ} (hne : w ≠ []) (h : w <:+: (l.take b).drop a) :
    ∃ p, a ≤ p ∧ p + w.length ≤ b ∧ w <+: l.drop p := by
  obtain ⟨x, y, hxy⟩ := h
  have hdrop : (l.drop (a + x.length)).take (b - (a + x.length)) = w ++ y := by
    rw [← List.drop_take, ← List.drop_drop, ← hxy, List.append_assoc, List.drop_left]
  have hlen := congrArg List.length hdrop
  have hpos := List.length_pos_of_ne_nil hne
  rw [List.length_take, List.length_append] at hlen
  refine ⟨a + x.length, Nat.le_add_right a _, by omega, ?_⟩
  exact (List.prefix_append w y).trans (hdrop ▸ List.take_prefix _ _)

/-- Where nothing but single bytes comes before, characters and bytes have the same places. -/
theorem place_eq_iff (h : k ≤ (chars text).length) :
    Pieces.place runeWidth text k = k ↔ ∀ c ∈ (chars text).take k, c.length = 1 := by
  have hne : ∀ c ∈ (chars text).take k, c ≠ [] := fun c hc =>
    lawful_runeWidth.ne_nil_of_mem (List.mem_of_mem_take hc)
  rw [← Pieces.length_flatten_eq_iff hne, List.length_take, Nat.min_eq_left h]
  rfl

/-- **The cut of a hit** is its bytes, if only single bytes come before it. -/
theorem cut_eq (hhit : Hit toLower dict text t)
    (hplace : Pieces.place runeWidth text t.pos = t.pos) (hsame : SameBytes toLower dict text) :
    cut t = (Pieces.place runeWidth text t.pos, Pieces.place runeWidth text t.stop) := by
  rw [cut, Term.stop, Pieces.place_add, ← chars, hsame t hhit, hplace]

theorem pairwise_cut (hcuts : hits.Pairwise fun t t' => t.stop ≤ t'.pos) 
    (hcut : ∀ t ∈ hits, cut t =
      (Pieces.place runeWidth text t.pos, Pieces.place runeWidth text t.stop)) :
    (hits.map cut).Pairwise fun c d => c.2 ≤ d.1 := by
  rw [List.pairwise_map]
  refine hcuts.imp_of_mem fun ht ht' hle => ?_
  rw [hcut _ ht, hcut _ ht']
  exact Pieces.place_mono hle

/-- Hits that do not overlap come one after the other. -/
theorem Reports.pairwise (h : Reports (readRunes toLower dict) (lowerRunes toLower text) hits)
    (hapart : Apart toLower dict text) : hits.Pairwise fun t t' => t.stop ≤ t'.pos := by
  refine (h.ordered.and h.nodup).imp_of_mem fun {t t'} ht ht' hle => ?_
  have hhit := (h.mem_iff t).1 ht
  have hhit' := (h.mem_iff t').1 ht'
  refine (hapart t t' hhit hhit' hle.2).resolve_right fun hbefore => ?_
  have hlt := hhit.pos_lt_stop
  have hlt' := hhit'.pos_lt_stop
  have hends := hle.1
  omega

/-- **Where it is right**, the scan goes through. -/
theorem exact_of_plain (h : Reports (readRunes toLower dict) (lowerRunes toLower text) hits)
    (hplain : Plain toLower dict text) (hapart : Apart toLower dict text)
    (hsame : SameBytes toLower dict text) :
    ∃ kept, stretches text hits = some kept ∧ Exact toLower dict text kept := by
  have hcut (t : Term) (ht : t ∈ hits) : cut t =
      (Pieces.place runeWidth text t.pos, Pieces.place runeWidth text t.stop) := by
    have hhit := (h.mem_iff t).1 ht
    have hle : t.pos ≤ (chars text).length := hhit.pos_lt_stop.le.trans (Hit.stop_le hhit)
    exact cut_eq hhit ((place_eq_iff hle).2 (hplain t hhit)) hsame
  have hcuts : ∀ c ∈ hits.map cut, c.1 ≤ c.2 := by
    intro c hc
    obtain ⟨t, -, rfl⟩ := List.mem_map.1 hc
    exact cut_le t
  have hlength : Pieces.place runeWidth text (chars text).length = text.length :=
    lawful_runeWidth.place_of_length_le (Nat.le_refl _)
  obtain ⟨kept, hkept⟩ : ∃ kept, stretches text hits = some kept := by
    refine (exists_keep_iff hcuts).2 ⟨Nat.zero_le _, fun c hc => ⟨Nat.zero_le _, ?_⟩,
      pairwise_cut (h.pairwise hapart) hcut⟩
    obtain ⟨t, ht, rfl⟩ := List.mem_map.1 hc
    rw [hcut t ht, ← hlength]
    exact Pieces.place_mono (Hit.stop_le ((h.mem_iff t).1 ht))
  -- a character is kept when it is in no hit
  have hchar (k : ℕ) (hk : k < (chars text).length) (i : ℕ) (hi : Within (bytesOf text k) i) :
      (∃ r ∈ kept, Within r i) ↔ ∀ t, Hit toLower dict text t → ¬(t.pos ≤ k ∧ k < t.stop) := by
    have hlt : i < text.length := hi.2.trans_le (hlength ▸ Pieces.place_mono hk)
    rw [mem_keep_iff hcuts hkept, and_iff_right (Nat.zero_le i), and_iff_right hlt,
      List.forall_mem_map]
    refine forall_congr' fun t => ?_
    rw [h.mem_iff t]
    refine forall_congr' fun hhit => ?_
    rw [hcut t ((h.mem_iff t).2 hhit), Within, Pieces.between_iff hi]
  refine ⟨kept, hkept, ⟨⟨{k | ∃ t, Hit toLower dict text t ∧ t.pos ≤ k ∧ k < t.stop},
    fun k hk => hk, fun k hk i hi => ?_⟩, ?_⟩⟩
  · rw [hchar k hk i hi]
    constructor
    · rintro hno ⟨t, hhit, hin⟩
      exact hno t hhit hin
    · exact fun hno t hhit hin => hno ⟨t, hhit, hin⟩
  · intro r hr w hw hne hinfix
    obtain ⟨hleft, hright, hle, -⟩ := ends_of_mem hkept hr
    obtain ⟨a, ha⟩ : ∃ a, r.1 = Pieces.place runeWidth text a := by
      rcases hleft with heq | ⟨c, hc, heq⟩
      · exact ⟨0, heq⟩
      · obtain ⟨t, ht, rfl⟩ := List.mem_map.1 hc
        exact ⟨t.stop, by rw [heq, hcut t ht]⟩
    obtain ⟨b, hb, hbound⟩ : ∃ b, r.2 = Pieces.place runeWidth text b ∧
        b ≤ (chars text).length := by
      rcases hright with heq | ⟨c, hc, heq⟩
      · exact ⟨_, heq.trans hlength.symm, Nat.le_refl _⟩
      · obtain ⟨t, ht, rfl⟩ := List.mem_map.1 hc
        have hhit := (h.mem_iff t).1 ht
        exact ⟨t.pos, by rw [heq, hcut t ht], hhit.pos_lt_stop.le.trans (Hit.stop_le hhit)⟩
    -- the word in the stretch is a hit, and its first character is kept
    obtain ⟨r1, r2⟩ := r
    obtain rfl : r1 = _ := ha
    obtain rfl : r2 = _ := hb
    rw [lowerRunes_part] at hinfix
    obtain ⟨p, hap, hpb, hhere⟩ := exists_of_infix_between hne hinfix
    have hpos := List.length_pos_of_ne_nil hne
    have hplt : p < (chars text).length := by omega
    have hin : Within (bytesOf text p) (Pieces.place runeWidth text p) :=
      ⟨Nat.le_refl _, lawful_runeWidth.place_lt_succ hplt⟩
    have hkept' := (hchar p hplt _ hin).1 ⟨_, hr, (Pieces.between_iff hin).2 ⟨hap, by omega⟩⟩
    exact hkept' ⟨p, w⟩ ⟨hw, hne, hhere⟩ ⟨Nat.le_refl p, Nat.lt_add_of_pos_right hpos⟩

/-- The cuts of two hits are apart when the scan goes through. -/
theorem cuts_apart (h : Reports (readRunes toLower dict) (lowerRunes toLower text) hits)
    (hkept : stretches text hits = some kept) (hhit : Hit toLower dict text t)
    (hhit' : Hit toLower dict text t') (hne : t ≠ t') :
    (cut t).2 ≤ (cut t').1 ∨ (cut t').2 ≤ (cut t).1 := by
  have hcuts : ∀ c ∈ hits.map cut, c.1 ≤ c.2 := by
    intro c hc
    obtain ⟨t, -, rfl⟩ := List.mem_map.1 hc
    exact cut_le t
  obtain ⟨-, -, hpair⟩ := (exists_keep_iff hcuts).1 ⟨kept, hkept⟩
  rw [List.pairwise_map] at hpair
  have hsymm : Std.Symm fun t t' : Term => (cut t).2 ≤ (cut t').1 ∨ (cut t').2 ≤ (cut t).1 :=
    ⟨fun _ _ => Or.symm⟩
  have hor : hits.Pairwise fun t t' => (cut t).2 ≤ (cut t').1 ∨ (cut t').2 ≤ (cut t).1 :=
    hpair.imp Or.inl
  exact hor.forall ((h.mem_iff t).2 hhit) ((h.mem_iff t').2 hhit') hne

theorem apart_of_keep (h : Reports (readRunes toLower dict) (lowerRunes toLower text) hits)
    (hkept : stretches text hits = some kept) : Apart toLower dict text := by
  intro t t' hhit hhit' hne
  rcases cuts_apart h hkept hhit hhit' hne with hle | hle
  · exact Or.inl ((stop_le_cut t).trans hle)
  · exact Or.inr ((stop_le_cut t').trans hle)

/-- **Where what is kept is right**, every character before a hit is one byte: the byte at the place
of the hit is left out, and no hit before it can have it. -/
theorem plain_of_exact (h : Reports (readRunes toLower dict) (lowerRunes toLower text) hits)
    (hkept : stretches text hits = some kept) (hexact : Exact toLower dict text kept)
    (hsame : SameBytes toLower dict text) : Plain toLower dict text := by
  obtain ⟨removed, hremoved, hchars⟩ := hexact.removed
  have hcuts : ∀ c ∈ hits.map cut, c.1 ≤ c.2 := by
    intro c hc
    obtain ⟨t, -, rfl⟩ := List.mem_map.1 hc
    exact cut_le t
  have hplace (p : ℕ) : ∀ t, Hit toLower dict text t → t.pos = p →
      Pieces.place runeWidth text t.pos = t.pos := by
    induction p using Nat.strong_induction_on with
    | _ p ih =>
      rintro t hhit rfl
      have hstop := Hit.stop_le hhit
      have hlt : t.pos < (chars text).length := hhit.pos_lt_stop.trans_le hstop
      by_contra hne
      have hbefore : t.pos < Pieces.place runeWidth text t.pos :=
        (lawful_runeWidth.le_place hlt.le).lt_of_ne' hne
      have hmem := (h.mem_iff t).2 hhit
      have hin : Within (cut t) t.pos :=
        ⟨Nat.le_refl _, hhit.pos_lt_stop.trans_le (stop_le_cut t)⟩
      -- the character that has this byte
      obtain ⟨k, hk, hbyte⟩ : ∃ k < (chars text).length, Within (bytesOf text k) t.pos := by
        refine lawful_runeWidth.exists_place (hlt.trans_le ?_)
        exact (Pieces.length_le_flatten fun c => lawful_runeWidth.ne_nil_of_mem).trans
          (congrArg List.length (lawful_runeWidth.flatten_split text)).le
      have hgone : k ∈ removed := by
        by_contra hstays
        obtain ⟨-, -, hout⟩ := (mem_keep_iff hcuts hkept).1 ((hchars k hk _ hbyte).2 hstays)
        exact hout _ (List.mem_map_of_mem hmem) hin
      obtain ⟨o, ho, hok, hko⟩ := hremoved k hgone
      have hkt : k < t.pos := by
        by_contra hle
        exact absurd (hbyte.1.trans_lt hbefore)
          (Nat.not_lt.2 (Pieces.place_mono (Nat.not_lt.1 hle)))
      have hlto : o.pos < t.pos := hok.trans_lt hkt
      have hcut := cut_eq ho (ih o.pos hlto o ho rfl) hsame
      have hino : Within (cut o) t.pos := by
        rw [hcut]
        exact (Pieces.between_iff hbyte).2 ⟨hok, hko⟩
      rcases cuts_apart h hkept ho hhit (fun heq => hlto.ne (congrArg Term.pos heq)) with hle | hle
      · exact absurd (hino.2.trans_le hle) (Nat.not_lt.2 hin.1)
      · exact absurd (hin.2.trans_le hle) (Nat.not_lt.2 hino.1)
  intro t hhit
  exact (place_eq_iff (hhit.pos_lt_stop.le.trans (Hit.stop_le hhit))).1 (hplace _ t hhit rfl)

/-- **The replacement is safe and exact** where every character before a hit takes one byte, no two
hits overlap and each hit has as many bytes as its word; among texts with the last, nowhere else. -/
theorem replaces_iff (hlibrary : Promised multiPatternSearch)
    (hdict : ∃ word ∈ dict, ¬IsBlank word) :
    (Plain toLower dict text ∧ Apart toLower dict text ∧ SameBytes toLower dict text →
      Replaces toLower dict text multiPatternSearch) ∧
    (SameBytes toLower dict text → Replaces toLower dict text multiPatternSearch →
      Plain toLower dict text ∧ Apart toLower dict text) := by
  obtain ⟨hits, hsearch, hreports⟩ :=
    hlibrary (readRunes toLower dict) (lowerRunes toLower text)
  rw [← getOrBuildAC_eq hdict] at hsearch
  constructor
  · rintro ⟨hplain, hapart, hsame⟩
    obtain ⟨kept, hkept, hexact⟩ := exact_of_plain hreports hplain hapart hsame
    refine ⟨hits, kept, hsearch, hkept, ?_, hexact⟩
    obtain ⟨word, hmem, -⟩ := hdict
    rw [sensitiveWordReplace_eq (List.ne_nil_of_mem hmem) hsearch, hkept, Option.map_some]
  · rintro hsame ⟨hits', kept, hsearch', hkept, -, hexact⟩
    obtain rfl : hits = hits' := Option.some.inj (hsearch.symm.trans hsearch')
    exact ⟨plain_of_exact hreports hkept hexact hsame, apart_of_keep hreports hkept⟩

/-- `unicode.ToLower` on ASCII. -/
def lowerASCII (r : ℕ) : ℕ := if 0x41 ≤ r ∧ r ≤ 0x5A then r + 0x20 else r

/-- A search that keeps the promise. -/
def searchAll (machine : Option (List (List ℕ))) (content : List ℕ) (returnImmediately : Bool) :
    Option (List Term) :=
  machine.map fun keywords =>
    if returnImmediately then (occurrences keywords content).take 1
    else occurrences keywords content

theorem promised_searchAll : Promised searchAll :=
  fun keywords content => ⟨_, rfl, reports_occurrences keywords content⟩

/-- `Oh bad day` without `bad`. -/
theorem replaces_badDay :
    Replaces lowerASCII [[0x42, 0x61, 0x64]] [0x4F, 0x68, 0x20, 0x62, 0x61, 0x64, 0x20, 0x64]
      searchAll := by
  have hblank : ∃ word ∈ [[(0x42 : UInt8), 0x61, 0x64]], ¬IsBlank word := by decide +kernel
  have hall : occurrences (readRunes lowerASCII [[0x42, 0x61, 0x64]])
      (lowerRunes lowerASCII [0x4F, 0x68, 0x20, 0x62, 0x61, 0x64, 0x20, 0x64]) =
        [⟨3, [0x62, 0x61, 0x64]⟩] := by
    decide +kernel
  have honly (t : Term) (ht : Hit lowerASCII [[0x42, 0x61, 0x64]]
      [0x4F, 0x68, 0x20, 0x62, 0x61, 0x64, 0x20, 0x64] t) : t = ⟨3, [0x62, 0x61, 0x64]⟩ :=
    List.mem_singleton.1 (hall ▸ ((reports_occurrences _ _).mem_iff t).2 ht)
  refine (replaces_iff promised_searchAll hblank).1 ⟨?_, ?_, ?_⟩
  · rintro t ht
    obtain rfl := honly t ht
    decide +kernel
  · rintro t t' ht ht' hne
    exact absurd ((honly t ht).trans (honly t' ht').symm) hne
  · rintro t ht
    obtain rfl := honly t ht
    decide +kernel

/-- Words that overlap, as `ab` and `bc` in `abc`, make it panic. -/
theorem not_replaces_abc : ¬∀ multiPatternSearch, Promised multiPatternSearch →
    Replaces lowerASCII [[0x61, 0x62], [0x62, 0x63]] [0x61, 0x62, 0x63] multiPatternSearch := by
  intro h
  obtain ⟨hits, kept, hsearch, hkept, -, -⟩ := h searchAll promised_searchAll
  have hhits : hits = [⟨0, [0x61, 0x62]⟩, ⟨1, [0x62, 0x63]⟩] :=
    Option.some.inj (hsearch.symm.trans (by decide +kernel))
  have hpanic : stretches [0x61, 0x62, 0x63] [⟨0, [0x61, 0x62]⟩, ⟨1, [0x62, 0x63]⟩] = none := by
    decide +kernel
  rw [hhits, hpanic] at hkept
  exact absurd hkept nofun

end NewApiPool.SensitiveWords
