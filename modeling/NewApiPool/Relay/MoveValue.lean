import NewApiPool.Lib.JsonMoves
import NewApiPool.Relay.Wildcards

/-!
# Moving a value

`moveValue` reads what is at one path, writes it at another one, and then deletes what is at the
first. Headers are moved alike, but not to their own name. Here the path that is written to is not
compared with the one that is deleted:

* a value that is moved to its own place is lost, and so is what is written inside of the source;
* where the source is an element before the target in the same array, the target moves down when it
  is deleted, and something else comes to stand in its place;
* where the source is inside of the target, it is deleted from the value that was moved.

Besides, numbers are decoded to `float64` on the way, and containers come into being, or take the
place of other values, where the path of the target does not fit. `KeepsValue` says when none of
this is seen, and `moved_moveValue_iff` that the value is moved then and only then.
-/

namespace NewApiPool.Relay

open GoText JsonDoc

variable {ν : Type}

/-- The libraries, as far as a move uses them. -/
structure MoveLibs (ν : Type) extends EditLibs ν where
  /-- the steps of a path that names one place, for `gjson` and for `sjson` -/
  steps : String → Option (List String)
  steps_ne_nil : ∀ path, steps path ≠ some []
  steps_join : ∀ segs, segs ≠ [] → (∀ seg ∈ segs, Plain seg ∧ seg ≠ "-1") →
    steps (joinPath segs) = some segs
  get_steps : ∀ j path segs, steps path = some segs → get j path = j.getAt segs
  delete_steps : ∀ j path segs, steps path = some segs → delete j path = .ok (j.eraseAt segs)
  /-- a number that is decoded to a `float64` and printed again -/
  float : ν → ν
  /-- `sjson.Set`, of a value that is decoded. The names of a map are sorted when it is printed. -/
  set : Doc ν → String → Doc ν → Except String (Doc ν)
  set_steps : ∀ j j' path segs w, steps path = some segs → set j path w = .ok j' →
    j.setAt segs w.sorted = some j'

variable (go : MoveLibs ν)

/-- **`moveValue`** -/
def moveValue (jsonStr : Doc ν) (fromPath toPath : String) : Except String (Doc ν) :=
  match go.get jsonStr fromPath with
  | none => .error ("source path does not exist: " ++ fromPath)
  | some sourceValue => do
    let result ← go.set jsonStr toPath (sourceValue.mapNum go.float)
    go.delete result fromPath

/-! ### What a move promises -/

/-- **A value is moved.** Values are compared without the order of members. -/
structure Moved (json : Doc ν) (src dst : List String) (out : Doc ν) : Prop where
  /-- what was at the source is at the target -/
  value : (out.getAt dst).map Doc.sorted = (json.getAt src).map Doc.sorted
  /-- apart from the target, only the source is gone, unless one is inside of the other -/
  rest : json.behind src dst = none → json.behind dst src = none →
    Doc.DiffersAt dst (json.eraseAt src) out
  /-- a move to the same place changes nothing -/
  self : json.behind src dst = some [] → out = json

/-- What comes to stand in the place of the target, when the source is deleted, is the value. -/
def Stands (json : Doc ν) (src dst : List String) (v : Doc ν) : Prop :=
  ((json.eraseAt src).getAt dst).map Doc.sorted = some v.sorted

/-- **When a move keeps the value.** -/
structure KeepsValue (json : Doc ν) (src dst : List String) (v : Doc ν) : Prop where
  /-- it is not moved to its own place -/
  apart : json.behind src dst ≠ some []
  /-- where the target is inside of the source, it is there after the source is deleted -/
  inside : json.behind src dst ≠ none → Stands json src dst v
  /-- where the target is behind the source in an array, it was there before, and is there after the
  source is deleted -/
  shifted : json.Shifts src dst →
    json.getAt dst = some (v.mapNum go.float).sorted ∧ Stands json src dst v
  /-- elsewhere, its numbers are `float64`s, … -/
  float : json.behind src dst = none → ¬json.Shifts src dst → ∀ n ∈ v.numbers, go.float n = n
  /-- … where the source is inside of the target, it has nothing at the path from there, … -/
  around : json.behind src dst = none → ∀ path ∈ json.behind dst src, v.getAt path = none
  /-- … and where both are apart, the path of the target fits what is left -/
  fits : json.behind src dst = none → json.behind dst src = none → ¬json.Shifts src dst →
    (json.eraseAt src).Fits dst

section Move

variable {go} {json result out v w : Doc ν} {fromPath toPath : String} {src dst path : List String}

theorem moveValue_eq_ok (hfrom : go.steps fromPath = some src) (hto : go.steps toPath = some dst)
    (hv : json.getAt src = some v) (h : moveValue go json fromPath toPath = .ok out) :
    ∃ result, json.setAt dst (v.mapNum go.float).sorted = some result ∧
      out = result.eraseAt src := by
  rw [moveValue, go.get_steps json fromPath src hfrom, hv] at h
  simp only at h
  cases hset : go.set json toPath (v.mapNum go.float) with
  | error err =>
    rw [hset] at h
    cases h
  | ok result =>
    rw [hset] at h
    change go.delete result fromPath = .ok out at h
    rw [go.delete_steps result fromPath src hfrom] at h
    exact ⟨result, go.set_steps json result toPath dst _ hto hset, (Except.ok.inj h).symm⟩

/-- A value is written as it was read, just in case its numbers are `float64`s. -/
theorem sorted_written_iff :
    (v.mapNum go.float).sorted.sorted = v.sorted ↔ ∀ n ∈ v.numbers, go.float n = n := by
  rw [Doc.sorted_sorted, Doc.sorted_mapNum, Doc.mapNum_eq_self_iff]
  simp only [Doc.mem_numbers_sorted]

/-- A value from which something is removed is another one. -/
theorem sorted_eraseAt_written_iff (hdistinct : v.Distinct) (hne : path ≠ []) :
    ((v.mapNum go.float).sorted.eraseAt path).sorted = v.sorted ↔
      (∀ n ∈ v.numbers, go.float n = n) ∧ v.getAt path = none := by
  have hget : (v.mapNum go.float).sorted.getAt path =
      (v.getAt path).map fun u => (u.mapNum go.float).sorted := by
    rw [Doc.getAt_sorted hdistinct.mapNum, Doc.getAt_mapNum, Option.map_map]
    rfl
  cases hpath : v.getAt path with
  | none =>
    have hnone : (v.mapNum go.float).sorted.getAt path = none := by
      rw [hget, hpath, Option.map_none]
    rw [Doc.eraseAt_of_getAt hnone, sorted_written_iff]
    exact (and_iff_left rfl).symm
  | some u =>
    rw [hpath, Option.map_some] at hget
    refine iff_of_false (fun h => ?_) fun h => absurd h.2 (Option.some_ne_none u)
    have hlt := Doc.nodes_eraseAt_lt hne hget
    have hnodes := congrArg Doc.nodes h
    rw [Doc.nodes_sorted, Doc.nodes_sorted] at hnodes
    rw [Doc.nodes_sorted, Doc.nodes_mapNum, hnodes] at hlt
    exact hlt.false

section Cases

variable (hne : src ≠ []) (hdistinct : json.Distinct) (hv : json.getAt src = some v)
  (hset : json.setAt dst (v.mapNum go.float).sorted = some result)
include hne hv hset

theorem moved_iff_of_inside (hsome : json.behind src dst = some path) :
    Moved json src dst (result.eraseAt src) ↔ KeepsValue go json src dst v := by
  have hinside : json.behind src dst ≠ none := by simp [hsome]
  have hshift : ¬json.Shifts src dst := fun h => hinside (Doc.behind_of_shifts h).1
  have hstands : Stands json src dst v ↔
      ((result.eraseAt src).getAt dst).map Doc.sorted = (json.getAt src).map Doc.sorted := by
    rw [Doc.eraseAt_setAt hne hsome hset, hv]
    exact Iff.rfl
  constructor
  · intro h
    refine ⟨fun hself => ?_, fun _ => hstands.2 h.value, fun h => absurd h hshift,
      fun hnone => absurd hnone hinside, fun hnone => absurd hnone hinside,
      fun hnone => absurd hnone hinside⟩
    have hlt := Doc.nodes_eraseAt_lt hne hv
    rw [← Doc.eraseAt_setAt hne hsome hset, h.self hself] at hlt
    exact hlt.false
  · intro h
    exact ⟨hstands.1 (h.inside hinside), fun hnone => absurd hnone hinside,
      fun hself => absurd hself h.apart⟩

omit hne in
theorem moved_iff_of_shifts (hshift : json.Shifts src dst) :
    Moved json src dst (result.eraseAt src) ↔ KeepsValue go json src dst v := by
  obtain ⟨hnone, hnone'⟩ := Doc.behind_of_shifts hshift
  -- a value that was there before is written to no effect
  have hsame (h : json.getAt dst = some (v.mapNum go.float).sorted) : result = json :=
    Option.some.inj (hset.symm.trans (Doc.setAt_of_getAt h))
  constructor
  · intro h
    obtain ⟨u, hu, -⟩ := Option.map_eq_some_iff.1 (h.value.trans (congrArg _ hv))
    have hbefore := Doc.getAt_of_shifts hv hshift hset (h.rest hnone hnone') hu
    have hstands : Stands json src dst v := by
      have hvalue := h.value
      rwa [hsame hbefore, hv] at hvalue
    refine ⟨by simp [hnone], fun h => absurd hnone h, fun _ => ⟨hbefore, hstands⟩,
      fun _ h => absurd hshift h, ?_, fun _ _ h => absurd hshift h⟩
    simp [hnone']
  · intro h
    obtain ⟨hbefore, hstands⟩ := h.shifted hshift
    rw [hsame hbefore]
    obtain ⟨u, hu, -⟩ := Option.map_eq_some_iff.1 hstands
    refine ⟨?_, fun _ _ => .refl hu, fun hself => absurd hself h.apart⟩
    rw [hv]
    exact hstands

include hdistinct in
omit hne in
theorem moved_iff_of_around (hnone : json.behind src dst = none)
    (hsome : json.behind dst src = some path) :
    Moved json src dst (result.eraseAt src) ↔ KeepsValue go json src dst v := by
  have hpath : path ≠ [] := by
    rintro rfl
    rw [Doc.behind_symm hsome] at hnone
    cases hnone
  have hshift : ¬json.Shifts src dst := fun h => by
    rw [(Doc.behind_of_shifts h).2] at hsome
    cases hsome
  have hvalue : ((result.eraseAt src).getAt dst).map Doc.sorted = (json.getAt src).map Doc.sorted ↔
      (∀ n ∈ v.numbers, go.float n = n) ∧ v.getAt path = none := by
    rw [Doc.getAt_eraseAt_setAt hpath hsome hset, hv, Option.map_some, Option.map_some,
      Option.some.injEq, sorted_eraseAt_written_iff (hdistinct.getAt hv) hpath]
  constructor
  · intro h
    obtain ⟨hfloat, hleft⟩ := hvalue.1 h.value
    refine ⟨by simp [hnone], fun h => absurd hnone h, fun h => absurd h hshift, fun _ _ => hfloat,
      fun _ path' hpath' => ?_, fun _ h => ?_⟩
    · rwa [← Option.some.inj (hsome.symm.trans hpath')]
    · rw [hsome] at h
      cases h
  · intro h
    refine ⟨hvalue.2 ⟨h.float hnone hshift, h.around hnone path hsome⟩, fun _ h => ?_, fun h => ?_⟩
    · rw [hsome] at h
      cases h
    · rw [hnone] at h
      cases h

omit hne in
/-- Source and target are apart, and the target stays where it is. -/
theorem moved_iff_of_apart (hnone : json.behind src dst = none)
    (hnone' : json.behind dst src = none) (hshift : ¬json.Shifts src dst) :
    Moved json src dst (result.eraseAt src) ↔ KeepsValue go json src dst v := by
  have hleft := Doc.setAt_eraseAt hv hnone hnone' hshift hset
  have hvalue : ((result.eraseAt src).getAt dst).map Doc.sorted = (json.getAt src).map Doc.sorted ↔
      ∀ n ∈ v.numbers, go.float n = n := by
    rw [Doc.getAt_setAt hleft, hv, Option.map_some, Option.map_some, Option.some.injEq,
      sorted_written_iff]
  have hrest : Doc.DiffersAt dst (json.eraseAt src) (result.eraseAt src) ↔
      (json.eraseAt src).Fits dst := Doc.differsAt_setAt_iff hleft
  constructor
  · intro h
    refine ⟨by simp [hnone], fun h => absurd hnone h, fun h => absurd h hshift,
      fun _ _ => hvalue.1 h.value, ?_, fun _ _ _ => hrest.1 (h.rest hnone hnone')⟩
    simp [hnone']
  · intro h
    refine ⟨hvalue.2 (h.float hnone hshift), fun _ _ => hrest.2 (h.fits hnone hnone' hshift),
      fun hself => ?_⟩
    rw [hnone] at hself
    cases hself

end Cases

/-- **A value is moved** just in case the move keeps it. -/
theorem moved_moveValue_iff (hdistinct : json.Distinct) (hfrom : go.steps fromPath = some src)
    (hto : go.steps toPath = some dst) (hv : json.getAt src = some v)
    (h : moveValue go json fromPath toPath = .ok out) :
    Moved json src dst out ↔ KeepsValue go json src dst v := by
  obtain ⟨result, hset, rfl⟩ := moveValue_eq_ok hfrom hto hv h
  have hne : src ≠ [] := by
    rintro rfl
    exact go.steps_ne_nil fromPath hfrom
  cases hinside : json.behind src dst with
  | some path => exact moved_iff_of_inside hne hv hset hinside
  | none =>
    by_cases hshift : json.Shifts src dst
    · exact moved_iff_of_shifts hv hset hshift
    · cases haround : json.behind dst src with
      | some path => exact moved_iff_of_around hdistinct hv hset hinside haround
      | none => exact moved_iff_of_apart hv hset hinside haround hshift

end Move

/-! ### A body -/

/-- Libraries that know plain steps only, and whole numbers. -/
def splitMoveLibs : MoveLibs ℤ where
  toEditLibs := splitEditLibs
  steps := fun path => some (split '.' path)
  steps_ne_nil := fun path h => split_ne_nil '.' path (Option.some.inj h)
  steps_join := fun segs hne hplain => by
    rw [split_joinPath hne fun seg hseg => (hplain seg hseg).1]
  get_steps := fun j path segs h => by rw [← Option.some.inj h]; rfl
  delete_steps := fun j path segs h => by rw [← Option.some.inj h]; rfl
  float := fun n => if n.natAbs ≤ 2 ^ 53 then n else 2 * (n / 2)
  set := fun j path w => ((j.setAt (split '.' path) w.sorted).map .ok).getD
    (.error "cannot set array element for non-numeric key")
  set_steps := fun j j' path segs w hsteps h => by
    obtain rfl := Option.some.inj hsteps
    cases hset : j.setAt (split '.' path) w.sorted with
    | none =>
      rw [hset] at h
      cases h
    | some j'' =>
      rw [hset] at h
      exact congrArg some (Except.ok.inj h)

def metadataBody : Doc ℤ :=
  .obj [("metadata", .obj [("user", .num 7)]), ("model", .str "gpt")]

theorem keepsValue_metadataBody :
    KeepsValue splitMoveLibs metadataBody ["metadata", "user"] ["user_id"] (.num 7) where
  apart := by decide
  inside := fun h => absurd (by decide) h
  shifted := fun h => by simp [metadataBody, Doc.Shifts, Doc.slot, Doc.Before] at h
  float := fun _ _ => by simp [Doc.numbers, splitMoveLibs]
  around := fun _ => by
    have hnone : metadataBody.behind ["user_id"] ["metadata", "user"] = none := by decide
    simp [hnone]
  fits := fun _ _ _ => ⟨trivial, fun _ h => absurd h List.not_mem_nil⟩

/-- A number is moved out of an object. -/
theorem moved_metadataBody : Moved metadataBody ["metadata", "user"] ["user_id"]
    (.obj [("metadata", .obj []), ("model", .str "gpt"), ("user_id", .num 7)]) := by
  have hdistinct : metadataBody.Distinct := by
    simp [metadataBody, Doc.Distinct, Doc.DistinctMembers]
  have hfrom : splitMoveLibs.steps "metadata.user" = some ["metadata", "user"] := by decide
  have hto : splitMoveLibs.steps "user_id" = some ["user_id"] := by decide
  exact (moved_moveValue_iff hdistinct hfrom hto rfl rfl).2 keepsValue_metadataBody

/-- **A value that is moved to its own place** is lost. -/
theorem not_moved_moveValue : ¬∀ (go : MoveLibs ℤ) (json v out : Doc ℤ) (fromPath toPath : String)
    (src dst : List String), json.Distinct → go.steps fromPath = some src →
      go.steps toPath = some dst → json.getAt src = some v →
        moveValue go json fromPath toPath = .ok out → Moved json src dst out := by
  intro h
  have hdistinct : metadataBody.Distinct := by
    simp [metadataBody, Doc.Distinct, Doc.DistinctMembers]
  have hmoved := h splitMoveLibs metadataBody (.str "gpt")
    (.obj [("metadata", .obj [("user", .num 7)])]) "model" "model" ["model"] ["model"] hdistinct
    (by decide) (by decide) rfl rfl
  have hself := hmoved.self (by decide)
  simp [metadataBody] at hself

end NewApiPool.Relay
