import NewApiPool.Routing.Status

/-!
# The abilities as an index of the channels

`Mirrors` through the operations that write the two tables. Some of them build the rows of a
channel again, some copy single columns, some delete by id; what they keep comes from three
facts about the index, and every operation is an instance of one of them.

* `mirrors_rebuild_iff` – building the rows of some channels again mends what was wrong with
  those channels, and nothing else is touched.
* `mirrors_map_iff` – a column that is written in the channels and in their rows alike.
* `mirrors_filter` – channels deleted together with their rows.

Four operations fall short. `DeleteDisabledChannel` leaves the rows of what it deletes.
`EditChannelByTag` copies columns from a struct, where the ORM skips a weight of `0`.
`BatchSetChannelTag` builds the rows from channels it reads outside its own transaction,
with the tag they had. `UpdateChannelStatus` sets the rows of a channel with several keys by
the *requested* status, also where the channel goes to another one. Beside these, `Update`
of an id without a row stores rows without a channel, and the builder remembers a pair by
`group|model`, which two pairs share if a name holds a `|`. `Keeps` says of an operation that
none of this happens, and `mirrors_run_iff` that nothing else goes wrong.
-/

namespace NewApiPool.Routing

open EventSystem

/-! ### The rows of one channel -/

/-- No two pairs of a channel have one key. -/
def Unambiguous (c : Channel) : Prop :=
  ∀ p ∈ c.pairs, ∀ q ∈ c.pairs,
    Channel.pairKey p.1 p.2 = Channel.pairKey q.1 q.2 → p = q

instance (c : Channel) : Decidable (Unambiguous c) :=
  inferInstanceAs (Decidable (∀ p ∈ c.pairs, ∀ q ∈ c.pairs, _))

variable {c : Channel} {a : Ability}

theorem mem_of_mem_collect {seen : List String} {ps : List (String × String)}
    (h : a ∈ c.collect seen ps) :
    (a.group, a.model) ∈ ps ∧ a = c.ability a.group a.model ∧
      Channel.pairKey a.group a.model ∉ seen := by
  induction ps generalizing seen with
  | nil => cases h
  | cons p ps ih =>
    obtain ⟨g, m⟩ := p
    unfold Channel.collect at h
    split at h
    · obtain ⟨hmem, ha, hseen⟩ := ih h
      exact ⟨List.mem_cons_of_mem _ hmem, ha, hseen⟩
    · rename_i hnew
      rcases List.mem_cons.1 h with rfl | h
      · exact ⟨List.mem_cons_self, rfl, hnew⟩
      · obtain ⟨hmem, ha, hseen⟩ := ih h
        exact ⟨List.mem_cons_of_mem _ hmem, ha, fun hk => hseen (List.mem_cons_of_mem _ hk)⟩

/-- The rows have distinct keys, also as the builder sees them. -/
theorem collect_pairwise (c : Channel) (seen : List String) (ps : List (String × String)) :
    (c.collect seen ps).Pairwise fun a b =>
      Channel.pairKey a.group a.model ≠ Channel.pairKey b.group b.model := by
  induction ps generalizing seen with
  | nil => exact List.Pairwise.nil
  | cons p ps ih =>
    obtain ⟨g, m⟩ := p
    unfold Channel.collect
    split
    · exact ih seen
    · refine List.pairwise_cons.2 ⟨fun b hb heq => ?_, ih _⟩
      refine (mem_of_mem_collect hb).2.2 ?_
      rw [← heq]
      exact List.mem_cons_self

theorem mem_collect_of_inj {ps : List (String × String)}
    (hinj : ∀ p ∈ ps, ∀ q ∈ ps, Channel.pairKey p.1 p.2 = Channel.pairKey q.1 q.2 → p = q)
    {seen : List String} {g m : String} (hmem : (g, m) ∈ ps)
    (hseen : Channel.pairKey g m ∉ seen) : c.ability g m ∈ c.collect seen ps := by
  induction ps generalizing seen with
  | nil => cases hmem
  | cons p ps ih =>
    have hinj' : ∀ p ∈ ps, ∀ q ∈ ps, Channel.pairKey p.1 p.2 = Channel.pairKey q.1 q.2 → p = q :=
      fun p hp q hq => hinj p (List.mem_cons_of_mem _ hp) q (List.mem_cons_of_mem _ hq)
    by_cases hp : p = (g, m)
    · subst hp
      unfold Channel.collect
      rw [if_neg hseen]
      exact List.mem_cons_self
    · have hmem' := (List.mem_cons.1 hmem).resolve_left (Ne.symm hp)
      unfold Channel.collect
      split
      · exact ih hinj' hmem' hseen
      · refine List.mem_cons_of_mem _ (ih hinj' hmem' fun hk => ?_)
        rcases List.mem_cons.1 hk with hk | hk
        · exact hp (hinj p List.mem_cons_self (g, m) hmem hk.symm)
        · exact hseen hk

theorem channelId_of_mem_newAbilities (h : a ∈ c.newAbilities) :
    a.channelId = c.id := by
  rw [(mem_of_mem_collect h).2.1]
  rfl

/-- **The rows of an unambiguous channel**: one for every group and model it lists. -/
theorem mem_newAbilities (hc : Unambiguous c) :
    a ∈ c.newAbilities ↔
      a.group ∈ c.groupList ∧ a.model ∈ c.modelList ∧ a = c.ability a.group a.model := by
  unfold Channel.newAbilities
  constructor
  · intro h
    obtain ⟨hmem, ha, -⟩ := mem_of_mem_collect h
    exact ⟨(Channel.mem_pairs c _ _).1 hmem |>.1, (Channel.mem_pairs c _ _).1 hmem |>.2, ha⟩
  · rintro ⟨hg, hm, ha⟩
    rw [ha]
    exact mem_collect_of_inj hc ((Channel.mem_pairs c _ _).2 ⟨hg, hm⟩) List.not_mem_nil

theorem newAbilities_keys_nodup (c : Channel) : (c.newAbilities.map Ability.key).Nodup := by
  refine List.pairwise_map.2 ((collect_pairwise c [] c.pairs).imp ?_)
  intro a b hne heq
  unfold Ability.key at heq
  rw [Prod.mk.injEq, Prod.mk.injEq] at heq
  rw [heq.1, heq.2.1] at hne
  exact hne rfl

/-- **An ambiguous channel misses a row.** -/
theorem exists_missing_of_ambiguous (h : ¬ Unambiguous c) :
    ∃ g ∈ c.groupList, ∃ m ∈ c.modelList, c.ability g m ∉ c.newAbilities := by
  unfold Unambiguous at h
  push Not at h
  obtain ⟨⟨g, m⟩, hp, ⟨g', m'⟩, hq, hkey, hne⟩ := h
  rw [Channel.mem_pairs] at hp hq
  by_cases hmem : c.ability g m ∈ c.newAbilities
  · -- the builder keeps one of the two
    refine ⟨g', hq.1, m', hq.2, fun hmem' => ?_⟩
    have hsym : ∀ x ∈ c.newAbilities, ∀ y ∈ c.newAbilities, x ≠ y →
        Channel.pairKey x.group x.model ≠ Channel.pairKey y.group y.model := by
      have : Std.Symm fun a b : Ability =>
          Channel.pairKey a.group a.model ≠ Channel.pairKey b.group b.model := ⟨fun _ _ => Ne.symm⟩
      intro x hx y hy hxy
      exact (collect_pairwise c [] c.pairs).forall hx hy hxy
    refine hsym _ hmem _ hmem' (fun heq => hne ?_) hkey
    exact Prod.ext (congrArg Ability.group heq) (congrArg Ability.model heq)
  · exact ⟨g, hp.1, m, hp.2, hmem⟩

/-! ### The statements -/

theorem createAbilities_of_new (db : DB) {rows : List Ability}
    (hrows : (rows.map Ability.key).Nodup)
    (hnew : ∀ a ∈ rows, a.key ∉ db.abilities.map Ability.key) :
    (db.createAbilities rows).abilities = db.abilities ++ rows := by
  unfold DB.createAbilities
  simp only
  generalize db.abilities = table at hnew
  induction rows generalizing table with
  | nil => simp
  | cons a rows ih =>
    rw [List.map_cons, List.nodup_cons] at hrows
    rw [List.foldl_cons, if_neg (hnew a List.mem_cons_self), ih hrows.2]
    · simp
    · intro b hb hmem
      rw [List.map_append, List.mem_append] at hmem
      rcases hmem with hmem | hmem
      · exact hnew b (List.mem_cons_of_mem _ hb) hmem
      · rw [List.map_cons, List.map_nil, List.mem_singleton] at hmem
        exact hrows.1 (hmem ▸ List.mem_map_of_mem hb)

/-- **The table after the rows of a channel were built again.** -/
theorem abilities_updateAbilities (db : DB) (c : Channel) :
    (db.updateAbilities c).abilities =
      (db.abilities.filter fun a => a.channelId ≠ c.id) ++ c.newAbilities := by
  have hfilter : (db.deleteAbilities c.id).abilities =
      db.abilities.filter fun a => a.channelId ≠ c.id := by
    unfold DB.deleteAbilities DB.deleteAbilityRows
    refine List.filter_congr fun a _ => ?_
    by_cases h : a.channelId = c.id <;> simp [h]
  unfold DB.updateAbilities
  rw [createAbilities_of_new _ (newAbilities_keys_nodup c), hfilter]
  intro a ha hmem
  rw [hfilter] at hmem
  obtain ⟨b, hb, hkey⟩ := List.mem_map.1 hmem
  have hid : b.channelId = c.id := by
    rw [← channelId_of_mem_newAbilities ha]
    exact congrArg (fun k => k.2.2) hkey
  simpa [hid] using (List.mem_filter.1 hb).2

variable {db : DB}

theorem keys_updateAbilities (h : (db.abilities.map Ability.key).Nodup) (c : Channel) :
    ((db.updateAbilities c).abilities.map Ability.key).Nodup := by
  rw [abilities_updateAbilities, List.map_append, List.nodup_append]
  refine ⟨h.sublist (List.filter_sublist.map _), newAbilities_keys_nodup c, ?_⟩
  intro k hk k' hk' heq
  obtain ⟨a, ha, rfl⟩ := List.mem_map.1 hk
  obtain ⟨b, hb, rfl⟩ := List.mem_map.1 hk'
  have hid : a.channelId = c.id := by
    rw [← channelId_of_mem_newAbilities hb]
    exact congrArg (fun k => k.2.2) heq
  simpa [hid] using (List.mem_filter.1 ha).2

/-! ### Building rows again -/

/-- The rows of several channels are built again, one channel after the other. -/
def rebuild (db : DB) (cs : List Channel) : DB := cs.foldl DB.updateAbilities db

@[simp] theorem channels_rebuild (db : DB) (cs : List Channel) :
    (rebuild db cs).channels = db.channels := by
  unfold rebuild
  induction cs generalizing db with
  | nil => rfl
  | cons c cs ih =>
    rw [List.foldl_cons, ih]
    rfl

theorem keys_rebuild (h : (db.abilities.map Ability.key).Nodup) (cs : List Channel) :
    ((rebuild db cs).abilities.map Ability.key).Nodup := by
  unfold rebuild
  induction cs generalizing db with
  | nil => exact h
  | cons c cs ih => exact ih (keys_updateAbilities h c)

/-- **The table after a rebuild**: the new rows of these channels, and the old rows of the
others. -/
theorem mem_rebuild {cs : List Channel} (hcs : DistinctIds cs) :
    a ∈ (rebuild db cs).abilities ↔
      (a ∈ db.abilities ∧ a.channelId ∉ cs.map Channel.id) ∨ ∃ c ∈ cs, a ∈ c.newAbilities := by
  unfold rebuild
  induction cs generalizing db with
  | nil => simp
  | cons c cs ih =>
    unfold DistinctIds at hcs
    rw [List.map_cons, List.nodup_cons] at hcs
    rw [List.foldl_cons, ih hcs.2, abilities_updateAbilities, List.mem_append, List.mem_filter]
    simp only [List.map_cons, List.mem_cons, not_or, exists_eq_or_imp, decide_eq_true_eq]
    constructor
    · rintro (⟨⟨ha, hne⟩ | hnew, hmem⟩ | hrest)
      · exact Or.inl ⟨ha, hne, hmem⟩
      · exact Or.inr (Or.inl hnew)
      · exact Or.inr (Or.inr hrest)
    · rintro (⟨ha, hne, hmem⟩ | hnew | hrest)
      · exact Or.inl ⟨Or.inl ⟨ha, hne⟩, hmem⟩
      · refine Or.inl ⟨Or.inr hnew, ?_⟩
        rw [channelId_of_mem_newAbilities hnew]
        exact hcs.1
      · exact Or.inr hrest

theorem newAbilities_ne_nil (c : Channel) : c.newAbilities ≠ [] := by
  obtain ⟨g, hg⟩ := List.exists_mem_of_ne_nil _ c.groupList_ne_nil
  obtain ⟨m, hm⟩ := List.exists_mem_of_ne_nil _ c.modelList_ne_nil
  have hmem := (Channel.mem_pairs c g m).2 ⟨hg, hm⟩
  unfold Channel.newAbilities
  match hp : c.pairs with
  | [] =>
    rw [hp] at hmem
    cases hmem
  | (g', m') :: ps =>
    unfold Channel.collect
    rw [if_neg List.not_mem_nil]
    exact List.cons_ne_nil _ _

theorem eq_of_ability {channels : List Channel} (hids : DistinctIds channels) {c' : Channel}
    (hc : c ∈ channels) (hc' : c' ∈ channels) {g m g' m' : String}
    (h : c.ability g m = c'.ability g' m') : c = c' :=
  List.inj_on_of_nodup_map hids hc hc' (congrArg Ability.channelId h)

/-- **A rebuild mends the channels it is for, unless one of them is ambiguous.** -/
theorem mirrors_rebuild_iff (hids : DistinctIds db.channels) {cs : List Channel}
    (hcs : DistinctIds cs) (hmem : ∀ c ∈ cs, c ∈ db.channels)
    (hoff : ∀ a : Ability, a.channelId ∉ cs.map Channel.id → (a ∈ db.abilities ↔
      ∃ c ∈ db.channels, a.group ∈ c.groupList ∧ a.model ∈ c.modelList ∧
        a = c.ability a.group a.model))
    (hkeys : (db.abilities.map Ability.key).Nodup) :
    Mirrors (rebuild db cs) ↔ ∀ c ∈ cs, Unambiguous c := by
  constructor
  · intro h c hc
    by_contra hamb
    obtain ⟨g, hg, m, hm, hmissing⟩ := exists_missing_of_ambiguous hamb
    have hrow : c.ability g m ∈ (rebuild db cs).abilities :=
      (h.mem_iff _).2 ⟨c, by simpa using hmem c hc, hg, hm, rfl⟩
    rcases (mem_rebuild hcs).1 hrow with ⟨-, hnot⟩ | ⟨c', hc', hnew⟩
    · exact hnot (List.mem_map_of_mem hc)
    · have hsame : c = c' := List.inj_on_of_nodup_map hcs hc hc'
        (channelId_of_mem_newAbilities hnew)
      subst hsame
      exact hmissing hnew
  · intro hun
    refine ⟨fun a => ?_, keys_rebuild hkeys cs⟩
    rw [mem_rebuild hcs, channels_rebuild]
    constructor
    · rintro (⟨ha, hnot⟩ | ⟨c, hc, hnew⟩)
      · exact (hoff a hnot).1 ha
      · exact ⟨c, hmem c hc, (mem_newAbilities (hun c hc)).1 hnew⟩
    · rintro ⟨c, hc, hg, hm, ha⟩
      by_cases hin : a.channelId ∈ cs.map Channel.id
      · obtain ⟨c', hc', hid⟩ := List.mem_map.1 hin
        have hsame : c' = c := by
          refine List.inj_on_of_nodup_map hids (hmem c' hc') hc ?_
          rw [hid, ha]
          rfl
        subst hsame
        exact Or.inr ⟨c', hc', (mem_newAbilities (hun c' hc')).2 ⟨hg, hm, ha⟩⟩
      · exact Or.inl ⟨(hoff a hin).2 ⟨c, hc, hg, hm, ha⟩, hin⟩

/-! ### Columns written in both tables, and deletions -/

/-- **A column update keeps the mirror exactly if each row follows its channel.** -/
theorem mirrors_map_iff (h : Mirrors db) {F : Channel → Channel} {G : Ability → Ability}
    (hF : ∀ c ∈ db.channels,
      (F c).groupList = c.groupList ∧ (F c).modelList = c.modelList ∧ (F c).id = c.id)
    (hG : ∀ a, (G a).key = a.key) :
    Mirrors ⟨db.channels.map F, db.abilities.map G⟩ ↔
      ∀ c ∈ db.channels, ∀ g ∈ c.groupList, ∀ m ∈ c.modelList,
        G (c.ability g m) = (F c).ability g m := by
  have hkeys : ((db.abilities.map G).map Ability.key).Nodup := by
    rw [List.map_map, show Ability.key ∘ G = Ability.key from funext hG]
    exact h.keys
  constructor
  · intro hafter c hc g hg m hm
    -- the row of the changed channel and the changed row of the channel have one key
    have hrow : G (c.ability g m) ∈ db.abilities.map G :=
      List.mem_map_of_mem ((h.mem_iff _).2 ⟨c, hc, hg, hm, rfl⟩)
    have hrow' : (F c).ability g m ∈ db.abilities.map G := by
      refine (hafter.mem_iff _).2 ⟨F c, List.mem_map_of_mem hc, ?_, ?_, rfl⟩
      · rw [(hF c hc).1]
        exact hg
      · rw [(hF c hc).2.1]
        exact hm
    refine List.inj_on_of_nodup_map hkeys hrow hrow' ?_
    rw [hG]
    unfold Ability.key
    simp only [Channel.ability_group, Channel.ability_model, Channel.ability_channelId,
      (hF c hc).2.2]
  · intro hfollow
    refine ⟨fun a => ?_, hkeys⟩
    simp only [List.mem_map]
    constructor
    · rintro ⟨b, hb, rfl⟩
      obtain ⟨c, hc, hg, hm, hb'⟩ := (h.mem_iff b).1 hb
      have hGb := hfollow c hc _ hg _ hm
      rw [← hb'] at hGb
      refine ⟨F c, ⟨c, hc, rfl⟩, ?_, ?_, ?_⟩
      · rw [hGb, (hF c hc).1]
        exact hg
      · rw [hGb, (hF c hc).2.1]
        exact hm
      · rw [hGb]
        rfl
    · rintro ⟨_, ⟨c, hc, rfl⟩, hg, hm, ha⟩
      rw [(hF c hc).1] at hg
      rw [(hF c hc).2.1] at hm
      refine ⟨c.ability a.group a.model, (h.mem_iff _).2 ⟨c, hc, hg, hm, rfl⟩, ?_⟩
      rw [hfollow c hc _ hg _ hm]
      exact ha.symm

/-- **Channels deleted together with their rows.** -/
theorem mirrors_filter (h : Mirrors db) (keep : ℕ → Bool) :
    Mirrors ⟨db.channels.filter fun c => keep c.id,
      db.abilities.filter fun a => keep a.channelId⟩ := by
  refine ⟨fun a => ?_, h.keys.sublist (List.filter_sublist.map _)⟩
  simp only [List.mem_filter, h.mem_iff]
  constructor
  · rintro ⟨⟨c, hc, hg, hm, ha⟩, hkeep⟩
    have hid : a.channelId = c.id := by
      rw [ha]
      rfl
    exact ⟨c, ⟨hc, hid ▸ hkeep⟩, hg, hm, ha⟩
  · rintro ⟨c, ⟨hc, hkeep⟩, hg, hm, ha⟩
    have hid : a.channelId = c.id := by
      rw [ha]
      rfl
    exact ⟨⟨c, hc, hg, hm, ha⟩, hid ▸ hkeep⟩

/-! ### The operations

Each as a whole, with every database call succeeding. The rows of `AddAbilities` and
`UpdateAbilities` are stored fifty at a time, which makes no difference then. -/

namespace DB

def insert (db : DB) (c : Channel) : DB :=
  if (db.first c.id).isSome then db
  else (db.create c).createAbilities c.withDefaults.newAbilities

/-- `Channel.Update`. The read that follows the update has no row for an id that is not
there, and its error is dropped. -/
def update (jsonArray : String → Option (List String)) (db : DB) (c : Channel) : DB :=
  let keyStr := if c.key ≠ "" then c.key else ((db.first c.id).map Channel.key).getD ""
  let c := if c.channelInfo.isMultiKey then c.recount jsonArray keyStr else c
  if c.id = 0 then db
  else (db.updates c).updateAbilities (((db.updates c).first c.id).getD c)

def delete (db : DB) (id : ℕ) : DB :=
  if id = 0 then db else (db.deleteChannels fun c => c.id == id).deleteAbilities id

/-- `BatchDeleteChannels`, two hundred ids at a time. -/
def batchDeleteChannels (db : DB) (ids : List ℕ) : DB :=
  (ids.toChunks 200).foldl (fun db chunk =>
    (db.deleteChannels fun c => c.id ∈ chunk).deleteAbilityRows fun a => a.channelId ∈ chunk) db

/-- A status for the channels of a tag, and for their abilities. -/
def setStatusByTag (db : DB) (tag : String) (status : ℤ) (enabled : Bool) : DB :=
  (db.updateChannels (fun c => c.tag == some tag) fun c => { c with status := status })
    |>.updateAbilityRows (fun a => a.tag == some tag) fun a => { a with enabled := enabled }

def enableChannelByTag (db : DB) (tag : String) : DB :=
  db.setStatusByTag tag channelStatusEnabled true

def disableChannelByTag (db : DB) (tag : String) : DB :=
  db.setStatusByTag tag channelStatusManuallyDisabled false

/-- `UpdateAbilityByTag`: from a struct, so that a weight of `0` is not written. -/
def updateAbilityByTag (db : DB) (tag : String) (newTag : Option String) (priority : Option ℤ)
    (weight : Option ℕ) : DB :=
  db.updateAbilityRows (fun a => a.tag == some tag) fun a =>
    { a with
      tag := newTag.or a.tag
      priority := priority.getD a.priority
      weight := if weight.getD 0 = 0 then a.weight else weight.getD 0 }

end DB

/-- The arguments of `EditChannelByTag` that concern the abilities. -/
structure TagEdit where
  newTag : Option String := none
  models : Option String := none
  group : Option String := none
  priority : Option ℤ := none
  weight : Option ℕ := none

namespace TagEdit

/-- The struct the channels are updated with. -/
def updateData (tag : String) (e : TagEdit) : Channel where
  id := 0
  tag := if e.newTag = some tag then none else e.newTag
  models := e.models.getD ""
  group := e.group.getD ""
  priority := e.priority
  weight := e.weight

/-- The rows have to be built again. -/
def shouldReCreateAbilities (e : TagEdit) : Bool := e.models.getD "" ≠ "" ∨ e.group.getD "" ≠ ""

/-- The tag the channels have afterwards. -/
def updatedTag (tag : String) (e : TagEdit) : String := e.newTag.getD tag

/-- What a channel becomes. -/
def apply (tag : String) (e : TagEdit) (c : Channel) : Channel :=
  if c.tag == some tag then c.patch (e.updateData tag) else c

end TagEdit

namespace DB

def editChannelByTag (db : DB) (tag : String) (e : TagEdit) : DB :=
  let edited := db.updateChannels (fun c => c.tag == some tag) fun c => c.patch (e.updateData tag)
  if e.shouldReCreateAbilities then
    rebuild edited (edited.channels.filter fun c => c.tag == some (e.updatedTag tag))
  else edited.updateAbilityByTag tag e.newTag e.priority e.weight

/-- `BatchSetChannelTag`. The channels are read outside the transaction that has changed
their tag, so they have the old one. -/
def batchSetChannelTag (db : DB) (ids : List ℕ) (tag : Option String) : DB :=
  let channels := db.channels.filter fun c => c.id ∈ ids
  rebuild (db.updateChannels (fun c => c.id ∈ ids) fun c => { c with tag := tag }) channels

def deleteDisabledChannel (db : DB) : DB :=
  db.deleteChannels fun c =>
    c.status == channelStatusAutoDisabled || c.status == channelStatusManuallyDisabled

end DB

/-- A call. What the memory cache holds at that time is part of a status update. -/
inductive ChannelOp
  | insert (c : Channel)
  | update (c : Channel)
  | delete (id : ℕ)
  | batchDelete (ids : List ℕ)
  | updateStatus (memory : Option Cache) (id : ℕ) (usingKey : String) (status : ℤ)
  | enableByTag (tag : String)
  | disableByTag (tag : String)
  | editByTag (tag : String) (e : TagEdit)
  | batchSetTag (ids : List ℕ) (tag : Option String)
  | deleteDisabled

/-- **One call** that writes channels, with the abilities that it writes along with them, deletes or
forgets. -/
def channelStep (jsonArray : String → Option (List String)) (db : DB) : ChannelOp → DB
  | .insert c => db.insert c
  | .update c => db.update jsonArray c
  | .delete id => db.delete id
  | .batchDelete ids => db.batchDeleteChannels ids
  | .updateStatus memory id usingKey status =>
    (updateChannelStatus jsonArray memory db id usingKey status).2.1
  | .enableByTag tag => db.enableChannelByTag tag
  | .disableByTag tag => db.disableChannelByTag tag
  | .editByTag tag e => db.editChannelByTag tag e
  | .batchSetTag ids tag => db.batchSetChannelTag ids tag
  | .deleteDisabled => db.deleteDisabledChannel

/-- The memory cache does not end a status update before the stored half. -/
def ReachesStored (memory : Option Cache) (id : ℕ) (status : ℤ) : Prop :=
  ∀ cache ∈ memory, ∃ c ∈ cache.channelsIDM id, c.channelInfo.isMultiKey = true ∨ c.status ≠ status

/-- **A call does none of the harm**, told from the tables before it. -/
def Keeps (jsonArray : String → Option (List String)) (db : DB) : ChannelOp → Prop
  -- the id is taken, or no two pairs of the channel have one key
  | .insert c => (db.first c.id).isSome ∨ Unambiguous c.withDefaults
  -- there is a row, and it stays unambiguous
  | .update c => c.id = 0 ∨ ∃ row ∈ db.first c.id, Unambiguous (row.patch c)
  -- a channel with several keys that is asked to be enabled is not pushed from another
  -- status to the automatic one instead
  | .updateStatus memory id usingKey status =>
    ReachesStored memory id status → ∀ row ∈ db.first id,
      row.channelInfo.isMultiKey = true → row.getKeys jsonArray ≠ [] →
        status = channelStatusEnabled → row.status ≠ channelStatusEnabled →
          row.status ≠ channelStatusAutoDisabled →
            StatusList.len (row.channelInfo.multiKeyStatusList.erase
              (keyIndex (row.getKeys jsonArray) usingKey)) < row.channelInfo.multiKeySize
  -- the rows that are built again are unambiguous; a weight of `0` is not news
  | .editByTag tag e =>
    if e.shouldReCreateAbilities then
      ∀ c ∈ db.channels, (e.apply tag c).tag = some (e.updatedTag tag) →
        Unambiguous (e.apply tag c)
    else e.weight = some 0 → ∀ c ∈ db.channels, c.tag = some tag → c.getWeight = 0
  -- the tag is not news, and the rows that are built again are unambiguous
  | .batchSetTag ids tag => ∀ c ∈ db.channels, c.id ∈ ids → c.tag = tag ∧ Unambiguous c
  -- there is nothing to delete
  | .deleteDisabled => ∀ c ∈ db.channels,
    c.status ≠ channelStatusAutoDisabled ∧ c.status ≠ channelStatusManuallyDisabled
  | .delete _ => True
  | .batchDelete _ => True
  | .enableByTag _ => True
  | .disableByTag _ => True

/-! ### One operation at a time -/

section Ops

variable {db : DB}

theorem Mirrors.first_isSome (h : Mirrors db) {a : Ability} (ha : a ∈ db.abilities) :
    (db.first a.channelId).isSome := by
  obtain ⟨c, hc, -, -, hac⟩ := (h.mem_iff a).1 ha
  cases hfirst : db.first a.channelId with
  | some _ => rfl
  | none =>
    refine absurd ?_ (first_eq_none hfirst c hc)
    rw [hac]
    rfl

variable {c : Channel}

theorem mem_of_first {id : ℕ} (h : db.first id = some c) : c ∈ db.channels :=
  List.mem_of_find?_eq_some h

theorem distinctIds_singleton (c : Channel) : DistinctIds [c] := List.nodup_singleton c.id

theorem mirrors_insert_iff (h : Mirrors db) (hids : DistinctIds db.channels) (c : Channel) :
    Mirrors (db.insert c) ↔ (db.first c.id).isSome ∨ Unambiguous c.withDefaults := by
  unfold DB.insert
  cases hfirst : db.first c.id with
  | some row => simp [h]
  | none =>
    have hcreate : db.create c = ⟨db.channels ++ [c.withDefaults], db.abilities⟩ := by
      simp [DB.create, hfirst]
    -- there is no row of this id to delete, so the rows are built as in an update
    have hbuild : (db.create c).createAbilities c.withDefaults.newAbilities =
        rebuild (db.create c) [c.withDefaults] := by
      have hdelete : (db.create c).deleteAbilities c.withDefaults.id = db.create c := by
        rw [hcreate]
        unfold DB.deleteAbilities DB.deleteAbilityRows
        simp only [DB.mk.injEq, true_and]
        refine List.filter_eq_self.2 fun a ha => ?_
        have hsome := h.first_isSome ha
        have hne : a.channelId ≠ c.id := by
          intro heq
          rw [heq, hfirst] at hsome
          cases hsome
        simpa using hne
      unfold rebuild DB.updateAbilities
      rw [List.foldl_cons, List.foldl_nil, hdelete]
    simp only [Option.isSome_none, Bool.false_eq_true, if_false, false_or, hbuild]
    have hids' : DistinctIds (db.create c).channels := distinctIds_create hids c
    rw [mirrors_rebuild_iff hids' (distinctIds_singleton _)]
    · simp
    · rw [hcreate]
      simp
    · intro a hne
      have hid : a.channelId ≠ c.id := by simpa using hne
      rw [hcreate, h.mem_iff]
      constructor
      · rintro ⟨c', hc', hrest⟩
        exact ⟨c', List.mem_append_left _ hc', hrest⟩
      · rintro ⟨c', hc', hg, hm, ha⟩
        rcases List.mem_append.1 hc' with hc' | hc'
        · exact ⟨c', hc', hg, hm, ha⟩
        · rw [List.mem_singleton.1 hc'] at ha
          refine absurd ?_ hid
          rw [ha]
          rfl
    · rw [hcreate]
      exact h.keys

/-- Channels other than those that were updated list what they listed. -/
theorem mem_iff_updateChannels (h : Mirrors db) {cond : Channel → Bool} {f : Channel → Channel}
    (hf : ∀ c, (f c).id = c.id) {a : Ability}
    (ha : ∀ c ∈ db.channels, cond c → c.id ≠ a.channelId) :
    a ∈ db.abilities ↔ ∃ c ∈ (db.updateChannels cond f).channels, a.group ∈ c.groupList ∧
      a.model ∈ c.modelList ∧ a = c.ability a.group a.model := by
  rw [h.mem_iff]
  unfold DB.updateChannels
  simp only [List.mem_map]
  constructor
  · rintro ⟨c, hc, hg, hm, hac⟩
    have hcond : ¬ cond c = true := fun hcond => ha c hc hcond (by rw [hac]; rfl)
    exact ⟨c, ⟨c, hc, if_neg hcond⟩, hg, hm, hac⟩
  · rintro ⟨_, ⟨c, hc, rfl⟩, hg, hm, hac⟩
    have hcond : ¬ cond c = true := by
      intro hcond
      refine ha c hc hcond ?_
      rw [if_pos hcond] at hac
      rw [hac, Channel.ability_channelId, hf]
    rw [if_neg hcond] at hg hm hac
    exact ⟨c, hc, hg, hm, hac⟩

theorem mirrors_update_iff (jsonArray : String → Option (List String)) (h : Mirrors db)
    (hids : DistinctIds db.channels) (c : Channel) :
    Mirrors (db.update jsonArray c) ↔
      c.id = 0 ∨ ∃ row ∈ db.first c.id, Unambiguous (row.patch c) := by
  unfold DB.update
  simp only
  generalize hkeyStr : (if c.key ≠ "" then c.key else ((db.first c.id).map Channel.key).getD "") =
    keyStr
  -- the recount touches neither the id nor the names
  have hrecount : ∃ c' : Channel,
      (if c.channelInfo.isMultiKey then c.recount jsonArray keyStr else c) = c' ∧ c'.id = c.id ∧
        ∀ row : Channel, (row.patch c').pairs = (row.patch c).pairs := by
    refine ⟨_, rfl, ?_, fun row => ?_⟩
    · split <;> rfl
    · split <;> rfl
  obtain ⟨c', hc', hid, hpairs⟩ := hrecount
  rw [hc', hid]
  by_cases hzero : c.id = 0
  · simp [hzero, h]
  · simp only [hzero, if_false, false_or]
    have hids' : DistinctIds (db.updates c').channels :=
      distinctIds_updateChannels hids _ fun row => Channel.patch_id row c'
    have hpatched : (db.updates c').first c.id = (db.first c.id).map fun row => row.patch c' := by
      unfold DB.updates
      rw [hid, DB.first_updateChannels db (f := fun row => row.patch c') fun row hrow => hrow,
        if_pos rfl]
    cases hfirst : db.first c.id with
    | none =>
      -- no row: the abilities are built for a channel that does not exist
      have hsame : (db.updates c').first c.id = none := by
        rw [hpatched, hfirst]
        rfl
      simp only [hsame, Option.getD_none, Option.not_mem_none, false_and, exists_false, iff_false]
      intro hafter
      obtain ⟨a, ha⟩ := List.exists_mem_of_ne_nil _ (newAbilities_ne_nil c')
      have hmem : a ∈ ((db.updates c').updateAbilities c').abilities := by
        rw [abilities_updateAbilities]
        exact List.mem_append_right _ ha
      have hsome := hafter.first_isSome hmem
      rw [channelId_of_mem_newAbilities ha, hid] at hsome
      have hkept : ((db.updates c').updateAbilities c').first c.id = (db.updates c').first c.id :=
        rfl
      rw [hkept, hsame] at hsome
      cases hsome
    | some row =>
      have hrow : row.id = c.id := DB.id_of_first hfirst
      have hnew : (db.updates c').first c.id = some (row.patch c') := by
        rw [hpatched, hfirst]
        rfl
      simp only [hnew, Option.getD_some, Option.mem_def, Option.some.injEq, exists_eq_left']
      rw [show (db.updates c').updateAbilities (row.patch c') =
        rebuild (db.updates c') [row.patch c'] from rfl,
        mirrors_rebuild_iff hids' (distinctIds_singleton _)]
      · unfold Unambiguous
        simp only [List.mem_singleton, forall_eq, hpairs]
      · intro x hx
        rw [List.mem_singleton.1 hx]
        exact mem_of_first hnew
      · intro a hne
        refine mem_iff_updateChannels h (fun row => Channel.patch_id row c') ?_
        intro x _ hx heq
        refine hne ?_
        rw [List.map_singleton, List.mem_singleton, Channel.patch_id, hrow, ← heq, ← hid]
        simpa using hx
      · exact h.keys

theorem mirrors_delete (h : Mirrors db) (id : ℕ) : Mirrors (db.delete id) := by
  unfold DB.delete
  split
  · exact h
  · exact mirrors_filter h fun i => !(i == id)

theorem mirrors_batchDelete (h : Mirrors db) (ids : List ℕ) :
    Mirrors (db.batchDeleteChannels ids) := by
  unfold DB.batchDeleteChannels
  induction ids.toChunks 200 generalizing db with
  | nil => exact h
  | cons chunk chunks ih => exact ih (mirrors_filter h fun i => !decide (i ∈ chunk))

theorem mirrors_setStatusByTag (h : Mirrors db) (tag : String) {status : ℤ} {enabled : Bool}
    (hen : (status == channelStatusEnabled) = enabled) :
    Mirrors (db.setStatusByTag tag status enabled) := by
  refine (mirrors_map_iff h (fun c _ => ?_) fun a => ?_).2 fun c _ g _ m _ => ?_
  · split <;> exact ⟨rfl, rfl, rfl⟩
  · split <;> rfl
  · -- the row has the tag of its channel
    by_cases htag : c.tag = some tag
    · simp [Channel.ability, Channel.isEnabled, htag, hen, Channel.getPriority, Channel.getWeight]
    · simp [Channel.ability, htag]

/-- What the stored half makes of a channel, by the row it has loaded. -/
def savedRow (updated c : Channel) : Channel :=
  if c.id == updated.id then { updated with key := c.key, keys := c.keys } else c

/-- The abilities of a channel that was changed differ in `enabled` only. -/
theorem ability_savedRow (jsonArray : String → Option (List String))
    (hids : DistinctIds db.channels) {row : Channel} (hrow : row ∈ db.channels)
    (hc : c ∈ db.channels) (usingKey : String) (status : ℤ) (g m : String) :
    (savedRow (changed jsonArray row usingKey status) c).ability g m =
      if c.id == row.id then
        { c.ability g m with enabled := (changed jsonArray row usingKey status).isEnabled }
      else c.ability g m := by
  obtain ⟨l, st, hchanged⟩ := changed_frame jsonArray row usingKey status
  unfold savedRow
  rw [hchanged]
  by_cases hid : c.id = row.id
  · have hsame : c = row := List.inj_on_of_nodup_map hids hc hrow hid
    subst hsame
    simp only [beq_self_eq_true, if_true]
    rfl
  · simp [hid]

theorem savedRow_names (jsonArray : String → Option (List String))
    (hids : DistinctIds db.channels) {row : Channel} (hrow : row ∈ db.channels)
    (hc : c ∈ db.channels) (usingKey : String) (status : ℤ) :
    (savedRow (changed jsonArray row usingKey status) c).groupList = c.groupList ∧
      (savedRow (changed jsonArray row usingKey status) c).modelList = c.modelList ∧
      (savedRow (changed jsonArray row usingKey status) c).id = c.id := by
  obtain ⟨l, st, hchanged⟩ := changed_frame jsonArray row usingKey status
  unfold savedRow
  rw [hchanged]
  by_cases hid : c.id = row.id
  · have hsame : c = row := List.inj_on_of_nodup_map hids hc hrow hid
    subst hsame
    rw [if_pos (beq_self_eq_true c.id)]
    exact ⟨rfl, rfl, rfl⟩
  · simp [hid]

/-- **The stored half keeps the mirror exactly if the requested status says of the abilities
what the new status says of the channel**, where it sets them at all. -/
theorem mirrors_updateStored_iff (jsonArray : String → Option (List String)) (h : Mirrors db)
    (hids : DistinctIds db.channels) (id : ℕ) (usingKey : String) (status : ℤ) :
    Mirrors (updateStored jsonArray db id usingKey status).1 ↔ ∀ row ∈ db.first id,
      row.status ≠ status → row.status ≠ (changed jsonArray row usingKey status).status →
        (status == channelStatusEnabled) = (changed jsonArray row usingKey status).isEnabled := by
  cases hfirst : db.first id with
  | none => simp [updateStored, hfirst, h]
  | some row =>
    simp only [Option.mem_def, Option.some.injEq, forall_eq']
    by_cases hstatus : row.status = status
    · simp [updateStored, hfirst, hstatus, h]
    simp only [ne_eq, hstatus, not_false_eq_true, true_implies]
    have hrow := mem_of_first hfirst
    have hid := DB.id_of_first hfirst
    -- what is saved and what is set, in one shape for both kinds of channels
    have hform : (updateStored jsonArray db id usingKey status).1 =
        if row.status = (changed jsonArray row usingKey status).status then
          db.saveWithoutKey (changed jsonArray row usingKey status)
        else (db.saveWithoutKey (changed jsonArray row usingKey status)).updateAbilityStatus id
          (status == channelStatusEnabled) := by
      unfold updateStored changed
      simp only [hfirst, if_neg hstatus]
      cases hmulti : row.channelInfo.isMultiKey with
      | true =>
        simp only [if_true, ne_eq, ite_not]
        split <;> rfl
      | false => simp [hstatus]
    rw [hform]
    by_cases hsame : row.status = (changed jsonArray row usingKey status).status
    · -- the abilities are left alone, and the channel is as enabled as it was
      simp only [hsame, if_true, not_true_eq_false, false_implies, iff_true]
      have hmap : db.saveWithoutKey (changed jsonArray row usingKey status) =
          ⟨db.channels.map (savedRow (changed jsonArray row usingKey status)),
            db.abilities.map fun a => a⟩ := by
        rw [List.map_id']
        rfl
      rw [hmap, mirrors_map_iff h
        (fun c hc => savedRow_names jsonArray hids hrow hc usingKey status) fun _ => rfl]
      intro c hc g _ m _
      rw [ability_savedRow jsonArray hids hrow hc]
      split
      · rename_i hcid
        have heq : c = row := List.inj_on_of_nodup_map hids hc hrow (beq_iff_eq.1 hcid)
        subst heq
        unfold Channel.isEnabled
        rw [← hsame]
        rfl
      · rfl
    · simp only [hsame, if_false, not_false_eq_true, true_implies]
      have hmap : (db.saveWithoutKey (changed jsonArray row usingKey status)).updateAbilityStatus id
          (status == channelStatusEnabled) =
          ⟨db.channels.map (savedRow (changed jsonArray row usingKey status)),
            db.abilities.map fun a => if a.channelId == id then
              { a with enabled := status == channelStatusEnabled } else a⟩ := rfl
      rw [hmap, mirrors_map_iff h
        (fun c hc => savedRow_names jsonArray hids hrow hc usingKey status)
        fun a => by split <;> rfl]
      constructor
      · intro hfollow
        obtain ⟨g, hg⟩ := List.exists_mem_of_ne_nil _ row.groupList_ne_nil
        obtain ⟨m, hm⟩ := List.exists_mem_of_ne_nil _ row.modelList_ne_nil
        have heq := hfollow row hrow g hg m hm
        rw [ability_savedRow jsonArray hids hrow hrow, Channel.ability_channelId, hid,
          if_pos (beq_self_eq_true id), if_pos (beq_self_eq_true id)] at heq
        exact congrArg Ability.enabled heq
      · intro hen c hc g _ m _
        rw [ability_savedRow jsonArray hids hrow hc, Channel.ability_channelId, hid, hen]
        rfl

/-- When the two disagree: the call asks for `enabled`, and the list, full also without the
key, pushes the channel to the automatic status from another one. -/
theorem enabled_agrees_iff (jsonArray : String → Option (List String)) (row : Channel)
    (usingKey : String) (status : ℤ) :
    (row.status ≠ status → row.status ≠ (changed jsonArray row usingKey status).status →
      (status == channelStatusEnabled) = (changed jsonArray row usingKey status).isEnabled) ↔
    (row.channelInfo.isMultiKey = true → row.getKeys jsonArray ≠ [] →
      status = channelStatusEnabled → row.status ≠ channelStatusEnabled →
        row.status ≠ channelStatusAutoDisabled →
          StatusList.len (row.channelInfo.multiKeyStatusList.erase
            (keyIndex (row.getKeys jsonArray) usingKey)) < row.channelInfo.multiKeySize) := by
  unfold Channel.isEnabled changed
  cases hmulti : row.channelInfo.isMultiKey with
  | false => simp
  | true =>
    simp only [if_true, true_implies, handlerMultiKeyUpdate_status]
    by_cases hnil : row.getKeys jsonArray = []
    · simp [hnil]
    · simp only [hnil, if_false, ne_eq, not_false_eq_true, true_implies]
      by_cases hen : status = channelStatusEnabled
      · subst hen
        simp only [StatusList.mark, if_true, beq_self_eq_true, true_implies]
        by_cases hfull : row.channelInfo.multiKeySize ≤ StatusList.len
          (row.channelInfo.multiKeyStatusList.erase (keyIndex (row.getKeys jsonArray) usingKey))
        · simp only [hfull, if_true, not_lt.2 hfull]
          constructor
          · intro h hon hauto
            exact absurd (h hon hauto) (by decide)
          · intro h hon hauto
            exact absurd (h hon hauto) id
        · simp [hfull, not_le.1 hfull]
      · -- what is not enabled becomes of the channel too, or of nothing
        have hleft : (status == channelStatusEnabled) = false := beq_eq_false_iff_ne.2 hen
        simp only [hen, false_implies, iff_true, hleft]
        intro _ hne
        split
        · rfl
        · rename_i hfull
          simp only [hfull, if_false, not_true_eq_false] at hne

theorem mirrors_updateStatus_iff (jsonArray : String → Option (List String)) (h : Mirrors db)
    (hids : DistinctIds db.channels) (memory : Option Cache) (id : ℕ) (usingKey : String)
    (status : ℤ) :
    Mirrors (updateChannelStatus jsonArray memory db id usingKey status).2.1 ↔
      Keeps jsonArray db (.updateStatus memory id usingKey status) := by
  have hstored := mirrors_updateStored_iff jsonArray h hids id usingKey status
  simp only [enabled_agrees_iff] at hstored
  unfold Keeps
  cases memory with
  | none =>
    have hreach : ReachesStored none id status := fun _ hcache => nomatch hcache
    simp only [hreach, true_implies]
    exact hstored
  | some cache =>
    have hreach : ReachesStored (some cache) id status ↔
        (updateCached jsonArray cache id usingKey status).isSome := by
      unfold ReachesStored updateCached
      simp only [Option.mem_def, Option.some.injEq, forall_eq']
      cases cache.channelsIDM id with
      | none => simp
      | some c =>
        cases hmulti : c.channelInfo.isMultiKey <;> by_cases hs : c.status = status <;>
          simp [hmulti, hs]
    unfold updateChannelStatus
    simp only
    cases hcached : updateCached jsonArray cache id usingKey status with
    | none => simp [hreach, hcached, h]
    | some cache' =>
      simp only [hreach, hcached, Option.isSome_some, true_implies]
      exact hstored

theorem tag_apply {tag : String} {e : TagEdit} (hc : c.tag = some tag) :
    (e.apply tag c).tag = some (e.updatedTag tag) := by
  unfold TagEdit.apply TagEdit.updatedTag
  rw [if_pos (beq_iff_eq.2 hc)]
  unfold Channel.patch TagEdit.updateData
  simp only [hc]
  cases e.newTag with
  | none => simp
  | some t => by_cases ht : t = tag <;> simp [ht]

/-- The abilities of an edited channel, where no name is edited. -/
theorem ability_apply {tag : String} {e : TagEdit} (hc : c.tag = some tag) (g m : String) :
    (e.apply tag c).ability g m = { c.ability g m with
        tag := e.newTag.or c.tag
        priority := e.priority.getD c.getPriority
        weight := e.weight.getD c.getWeight } := by
  unfold TagEdit.apply
  rw [if_pos (beq_iff_eq.2 hc)]
  unfold Channel.patch TagEdit.updateData Channel.ability Channel.isEnabled Channel.getPriority
    Channel.getWeight
  simp only [if_true, Ability.mk.injEq, true_and]
  refine ⟨?_, ?_, ?_⟩
  · cases e.priority <;> simp
  · cases e.weight <;> simp
  · rw [hc]
    cases e.newTag with
    | none => simp
    | some t => by_cases ht : t = tag <;> simp [ht]

theorem mirrors_editByTag_iff (jsonArray : String → Option (List String)) (h : Mirrors db)
    (hids : DistinctIds db.channels) (tag : String) (e : TagEdit) :
    Mirrors (db.editChannelByTag tag e) ↔ Keeps jsonArray db (.editByTag tag e) := by
  unfold DB.editChannelByTag Keeps
  simp only
  -- the edited channels
  have hedited : (db.updateChannels (fun c => c.tag == some tag)
      fun c => c.patch (e.updateData tag)).channels = db.channels.map (e.apply tag) := rfl
  by_cases hbuild : e.shouldReCreateAbilities = true
  · simp only [hbuild, if_true]
    have hids' := distinctIds_updateChannels hids (fun c => c.tag == some tag)
      fun c => Channel.patch_id c (e.updateData tag)
    rw [mirrors_rebuild_iff hids']
    · rw [hedited]
      simp only [List.mem_filter, List.mem_map, beq_iff_eq, and_imp, forall_exists_index,
        forall_apply_eq_imp_iff₂]
    · exact hids'.sublist (List.filter_sublist.map _)
    · exact fun c hc => (List.mem_filter.1 hc).1
    · intro a hne
      refine mem_iff_updateChannels h (fun c => Channel.patch_id c (e.updateData tag)) ?_
      -- what was edited has the new tag, so it is built again
      intro c hc hcond heq
      have htag : c.tag = some tag := beq_iff_eq.1 hcond
      refine hne (List.mem_map.2 ⟨e.apply tag c, List.mem_filter.2 ⟨?_, ?_⟩, ?_⟩)
      · rw [hedited]
        exact List.mem_map_of_mem hc
      · exact beq_iff_eq.2 (tag_apply htag)
      · rw [← heq]
        unfold TagEdit.apply
        rw [if_pos hcond]
        rfl
    · exact h.keys
  · rw [if_neg hbuild, if_neg hbuild]
    -- no name is edited
    have hempty : e.models.getD "" = "" ∧ e.group.getD "" = "" := by
      unfold TagEdit.shouldReCreateAbilities at hbuild
      simpa using hbuild
    have hmap : (db.updateChannels (fun c => c.tag == some tag)
        fun c => c.patch (e.updateData tag)).updateAbilityByTag tag e.newTag e.priority e.weight =
        ⟨db.channels.map (e.apply tag), db.abilities.map fun a => if a.tag == some tag then
          { a with
            tag := e.newTag.or a.tag
            priority := e.priority.getD a.priority
            weight := if e.weight.getD 0 = 0 then a.weight else e.weight.getD 0 } else a⟩ := rfl
    have hnames : ∀ c ∈ db.channels, (e.apply tag c).groupList = c.groupList ∧
        (e.apply tag c).modelList = c.modelList ∧ (e.apply tag c).id = c.id := by
      intro c _
      unfold TagEdit.apply
      split
      · unfold Channel.groupList Channel.modelList Channel.patch TagEdit.updateData
        simp [hempty]
      · exact ⟨rfl, rfl, rfl⟩
    rw [hmap, mirrors_map_iff h hnames fun a => by split <;> rfl]
    constructor
    · intro hfollow hweight c hc htag
      obtain ⟨g, hg⟩ := List.exists_mem_of_ne_nil _ c.groupList_ne_nil
      obtain ⟨m, hm⟩ := List.exists_mem_of_ne_nil _ c.modelList_ne_nil
      have heq := congrArg Ability.weight (hfollow c hc g hg m hm)
      rw [ability_apply htag] at heq
      simpa [Channel.ability, htag, hweight] using heq
    · intro hweight c hc g _ m _
      by_cases htag : c.tag = some tag
      · have hrow : ((c.ability g m).tag == some tag) = true := by simpa using htag
        rw [ability_apply htag, if_pos hrow]
        unfold Channel.ability
        simp only [Ability.mk.injEq, true_and, and_true]
        -- a weight that is given is written, unless it is `0`
        cases hw : e.weight with
        | none => simp
        | some w =>
          by_cases hzero : w = 0
          · subst hzero
            simpa using hweight hw c hc htag
          · simp [hzero]
      · have hsame : e.apply tag c = c := by
          unfold TagEdit.apply
          rw [if_neg (by simpa using htag)]
        have hrow : ¬ ((c.ability g m).tag == some tag) = true := by simpa using htag
        rw [hsame, if_neg hrow]

theorem mirrors_batchSetTag_iff (h : Mirrors db) (hids : DistinctIds db.channels) (ids : List ℕ)
    (tag : Option String) :
    Mirrors (db.batchSetChannelTag ids tag) ↔
      ∀ c ∈ db.channels, c.id ∈ ids → c.tag = tag ∧ Unambiguous c := by
  have hold : DistinctIds (db.channels.filter fun c => c.id ∈ ids) :=
    hids.sublist (List.filter_sublist.map _)
  -- what is known before anything is rebuilt
  have hbuilt : (∀ c ∈ db.channels, c.id ∈ ids → c.tag = tag) →
      (Mirrors (db.batchSetChannelTag ids tag) ↔
        ∀ c ∈ db.channels.filter fun c => c.id ∈ ids, Unambiguous c) := by
    intro htags
    have hsame : (db.updateChannels (fun c => c.id ∈ ids) fun c => { c with tag := tag }) = db := by
      unfold DB.updateChannels
      have hmap : (db.channels.map fun c => if decide (c.id ∈ ids) = true then
          { c with tag := tag } else c) = db.channels := by
        refine (List.map_congr_left fun c hc => ?_).trans (List.map_id' _)
        split
        · rename_i hin
          rw [← htags c hc (of_decide_eq_true hin)]
        · rfl
      rw [hmap]
    unfold DB.batchSetChannelTag
    rw [hsame]
    exact mirrors_rebuild_iff hids hold (fun c hc => (List.mem_filter.1 hc).1)
      (fun a _ => h.mem_iff a) h.keys
  constructor
  · intro hafter
    have htags : ∀ c ∈ db.channels, c.id ∈ ids → c.tag = tag := by
      intro c hc hin
      -- a row that was built again has the old tag, its channel the new one
      obtain ⟨a, ha⟩ := List.exists_mem_of_ne_nil _ (newAbilities_ne_nil c)
      have hmem : a ∈ (db.batchSetChannelTag ids tag).abilities :=
        (mem_rebuild hold).2 (Or.inr ⟨c, List.mem_filter.2 ⟨hc, by simpa using hin⟩, ha⟩)
      obtain ⟨c', hc', -, -, hac⟩ := (hafter.mem_iff a).1 hmem
      have htag : a.tag = c.tag := by
        rw [(mem_of_mem_collect ha).2.1]
        rfl
      have hid : a.channelId = c.id := channelId_of_mem_newAbilities ha
      unfold DB.batchSetChannelTag at hc'
      rw [channels_rebuild] at hc'
      obtain ⟨c₀, hc₀, rfl⟩ := List.mem_map.1 hc'
      have hid₀ : c₀.id = c.id := by
        rw [← hid, hac]
        split <;> rfl
      have hsame : c₀ = c := List.inj_on_of_nodup_map hids hc₀ hc hid₀
      subst hsame
      rw [if_pos (by simpa using hin)] at hac
      rw [← htag, hac]
      rfl
    intro c hc hin
    exact ⟨htags c hc hin,
      (hbuilt htags).1 hafter c (List.mem_filter.2 ⟨hc, by simpa using hin⟩)⟩
  · intro hall
    refine (hbuilt fun c hc hin => (hall c hc hin).1).2 fun c hc => ?_
    obtain ⟨hc, hin⟩ := List.mem_filter.1 hc
    exact (hall c hc (of_decide_eq_true hin)).2

theorem mirrors_deleteDisabled_iff (h : Mirrors db) (hids : DistinctIds db.channels) :
    Mirrors db.deleteDisabledChannel ↔ ∀ c ∈ db.channels,
      c.status ≠ channelStatusAutoDisabled ∧ c.status ≠ channelStatusManuallyDisabled := by
  unfold DB.deleteDisabledChannel DB.deleteChannels
  constructor
  · intro hafter c hc
    -- the rows of the channel are still there, so the channel is
    obtain ⟨g, hg⟩ := List.exists_mem_of_ne_nil _ c.groupList_ne_nil
    obtain ⟨m, hm⟩ := List.exists_mem_of_ne_nil _ c.modelList_ne_nil
    have hmem : c.ability g m ∈ db.abilities := (h.mem_iff _).2 ⟨c, hc, hg, hm, rfl⟩
    obtain ⟨c', hc', -, -, hac⟩ := (hafter.mem_iff (c.ability g m)).1 hmem
    obtain ⟨hc', hkeep⟩ := List.mem_filter.1 hc'
    rw [eq_of_ability hids hc hc' hac]
    simpa using hkeep
  · intro hall
    have hsame : (db.channels.filter fun c => !(c.status == channelStatusAutoDisabled ||
        c.status == channelStatusManuallyDisabled)) = db.channels :=
      List.filter_eq_self.2 fun c hc => by simpa using hall c hc
    rw [hsame]
    exact h

/-- **One call keeps the mirror exactly if it does none of the harm.** -/
theorem mirrors_step_iff (jsonArray : String → Option (List String)) (h : Mirrors db)
    (hids : DistinctIds db.channels) (op : ChannelOp) :
    Mirrors (channelStep jsonArray db op) ↔ Keeps jsonArray db op := by
  cases op with
  | insert c => exact mirrors_insert_iff h hids c
  | update c => exact mirrors_update_iff jsonArray h hids c
  | delete id => exact iff_true_intro (mirrors_delete h id)
  | batchDelete ids => exact iff_true_intro (mirrors_batchDelete h ids)
  | updateStatus memory id usingKey status =>
    exact mirrors_updateStatus_iff jsonArray h hids memory id usingKey status
  | enableByTag tag => exact iff_true_intro (mirrors_setStatusByTag h tag rfl)
  | disableByTag tag => exact iff_true_intro (mirrors_setStatusByTag h tag rfl)
  | editByTag tag e => exact mirrors_editByTag_iff jsonArray h hids tag e
  | batchSetTag ids tag => exact mirrors_batchSetTag_iff h hids ids tag
  | deleteDisabled => exact mirrors_deleteDisabled_iff h hids

/-- What `updateStored` writes to the channels keeps their ids. -/
theorem distinctIds_updateStored (jsonArray : String → Option (List String))
    (hids : DistinctIds db.channels) (id : ℕ) (usingKey : String) (status : ℤ) :
    DistinctIds (updateStored jsonArray db id usingKey status).1.channels := by
  have hsave : ∀ c : Channel, DistinctIds (db.saveWithoutKey c).channels := by
    intro c
    have hmap : (db.saveWithoutKey c).channels.map Channel.id = db.channels.map Channel.id := by
      unfold DB.saveWithoutKey DB.updateChannels
      rw [List.map_map]
      refine List.map_congr_left fun row _ => ?_
      simp only [Function.comp_apply]
      split
      · rename_i hrow
        exact (beq_iff_eq.1 hrow).symm
      · rfl
    unfold DistinctIds
    rw [hmap]
    exact hids
  unfold updateStored
  cases db.first id with
  | none => exact hids
  | some row =>
    simp only
    split
    · exact hids
    · split
      · split <;> exact hsave _
      · exact hsave _

/-- **One call keeps the ids distinct.** -/
theorem distinctIds_channelStep (jsonArray : String → Option (List String))
    (hids : DistinctIds db.channels) (op : ChannelOp) :
    DistinctIds (channelStep jsonArray db op).channels := by
  cases op with
  | insert c =>
    simp only [channelStep, DB.insert]
    split
    · exact hids
    · exact distinctIds_create hids c
  | update c =>
    simp only [channelStep, DB.update]
    generalize (if c.channelInfo.isMultiKey then c.recount jsonArray _ else c) = c'
    split
    · exact hids
    · exact distinctIds_updateChannels hids _ fun row => Channel.patch_id row _
  | delete id =>
    simp only [channelStep, DB.delete]
    split
    · exact hids
    · exact distinctIds_deleteChannels hids _
  | batchDelete ids =>
    simp only [channelStep, DB.batchDeleteChannels]
    induction ids.toChunks 200 generalizing db with
    | nil => exact hids
    | cons chunk chunks ih => exact ih (distinctIds_deleteChannels hids _)
  | updateStatus memory id usingKey status =>
    have hstored := distinctIds_updateStored jsonArray hids id usingKey status
    simp only [channelStep, updateChannelStatus]
    split
    · exact hstored
    · split
      · exact hids
      · exact hstored
  | enableByTag tag => exact distinctIds_updateChannels hids _ fun _ => rfl
  | disableByTag tag => exact distinctIds_updateChannels hids _ fun _ => rfl
  | editByTag tag e =>
    simp only [channelStep, DB.editChannelByTag]
    split
    · rw [channels_rebuild]
      exact distinctIds_updateChannels hids _ fun c => Channel.patch_id c _
    · exact distinctIds_updateChannels hids _ fun c => Channel.patch_id c _
  | batchSetTag ids tag =>
    simp only [channelStep, DB.batchSetChannelTag, channels_rebuild]
    exact distinctIds_updateChannels hids _ fun _ => rfl
  | deleteDisabled => exact distinctIds_deleteChannels hids _

end Ops

/-! ### Runs -/

/-- **The abilities mirror the channels in every state of a run exactly when no call of it
does any of the harm**, from any tables that mirror. -/
theorem mirrors_run_iff (jsonArray : String → Option (List String)) (db : DB)
    (hids : DistinctIds db.channels) (h : Mirrors db) (ops : List ChannelOp) :
    (∀ n, Mirrors (run (channelStep jsonArray) db (ops.take n))) ↔
      Along (channelStep jsonArray) (Keeps jsonArray) db ops :=
  forall_take_iff (I := fun db => Mirrors db ∧ DistinctIds db.channels) (fun _ h => h.1)
    (fun _ op h hkeep => ⟨(mirrors_step_iff jsonArray h.1 h.2 op).2 hkeep,
      distinctIds_channelStep jsonArray h.2 op⟩)
    (fun _ op h hafter => (mirrors_step_iff jsonArray h.1 h.2 op).1 hafter) ⟨h, hids⟩ ops

/-- A channel that is not enabled. -/
def disabledChannel : Channel :=
  { id := 7, status := channelStatusManuallyDisabled, models := "gpt-4o", group := "default,vip" }

/-- It is inserted, and then deleted by its id. -/
theorem mirrors_run_delete :
    DistinctIds [] ∧ Mirrors ⟨[], []⟩ ∧
      Mirrors (run (channelStep fun _ => none) ⟨[], []⟩ [.insert disabledChannel, .delete 7]) :=
  ⟨by decide, by decide, (mirrors_run_iff (fun _ => none) ⟨[], []⟩ (by decide) (by decide)
    [.insert disabledChannel, .delete 7]).2
      ⟨Or.inr (by decide), trivial, trivial⟩ 2⟩

/-- **It is inserted, and `DeleteDisabledChannel` is called**: its rows stay behind. -/
theorem deleteDisabled_leaves_rows :
    DistinctIds [] ∧ Mirrors ⟨[], []⟩ ∧
      ¬ Mirrors (run (channelStep fun _ => none) ⟨[], []⟩
        [.insert disabledChannel, .deleteDisabled]) := by
  decide

end NewApiPool.Routing
