import SharpEvPicks.Pipeline.Commits
import SharpEvPicks.Transition.Run

/-! The table of picks over a sequence of transactions. -/
namespace SharpEvPicks.Pipeline

open Python Risk Settlement Storage

inductive Closing where
  | settled | superseded
  deriving DecidableEq

def Closing.status : Closing → PickStatus
  | .settled => .settled
  | .superseded => .superseded

/-- One transaction on the table. Its configuration and its ledger are its own. -/
inductive Transaction where
  | reserve (deps : PersistDeps) (ledger : DailyExposureLedger)
      (target : Option Target) (pick : PickOut)
    (breakdown : StakeBreakdown) (eventId : Str) (now : Int) (fault : Option Fault)
  | shadow (deps : PersistDeps)
      (target : Option Target) (pick : PickOut) (now : Int) (fault : Option Fault)
  | settle (id : Nat) (closing : Closing) (close : CloseColumns)

def Transaction.tier : Transaction → Option Tier
  | .reserve _ _ _ pick _ _ _ _ => some pick.tier
  | .shadow _ _ pick _ _ => some pick.tier
  | .settle _ _ _ => none

def settleRow (id : Nat) (closing : Closing) (close : CloseColumns) (row : PickRow) : PickRow :=
  if row.id = id ∧ row.status = .alerted then
    { row with status := closing.status, close := close }
  else row

def emptyPicks : PickTable := ⟨[], 1⟩

def PickRow.OpenPremium (row : PickRow) : Prop := row.status = .alerted ∧ row.tier = .premium

instance decidableOpenPremium (row : PickRow) : Decidable (PickRow.OpenPremium row) :=
  inferInstanceAs (Decidable (_ ∧ _))

section
variable [Unicode]

/-- The table after the commit of a transaction, or as it was where the transaction fails. -/
def transact (picks : PickTable) : Transaction → PickTable
  | .reserve deps ledger target pick breakdown eventId now fault =>
    (persistAndReserve deps picks ledger target pick breakdown eventId now fault).picks
  | .shadow deps target pick now fault => (maybePersist deps picks target pick now fault).2
  | .settle id closing close => { picks with rows := picks.rows.map (settleRow id closing close) }

end

/-- Open premium rows of one instrument have one key. -/
def OnePremium (picks : PickTable) : Prop :=
  ∀ r ∈ picks.rows, ∀ r' ∈ picks.rows, PickRow.OpenPremium r → PickRow.OpenPremium r' →
    r.instrument = r'.instrument → r.key = r'.key

theorem onePremium_of_old {picks picks' : PickTable} (one : OnePremium picks)
    (old : ∀ r' ∈ picks'.rows, PickRow.OpenPremium r' →
      ∃ r ∈ picks.rows, PickRow.OpenPremium r ∧ r.key = r'.key) : OnePremium picks' := by
  intro r inside r' inside' live live' same
  obtain ⟨o, listed, open_, keys⟩ := old r inside live
  obtain ⟨o', listed', open', keys'⟩ := old r' inside' live'
  rw [← keys, ← keys']
  apply one o listed o' listed' open_ open'
  exact (congrArg Prod.fst keys).trans (same.trans (congrArg Prod.fst keys').symm)

theorem onePremium_of_sole {picks picks' : PickTable} (one : OnePremium picks)
    (key : Instrument × Nat)
    (old : ∀ r' ∈ picks'.rows, PickRow.OpenPremium r' →
      r'.key = key ∨ (r'.instrument ≠ key.1 ∧ ∃ r ∈ picks.rows,
        PickRow.OpenPremium r ∧ r.key = r'.key)) :
    OnePremium picks' := by
  intro r inside r' inside' live live' same
  rcases old r inside live with own | ⟨other, o, listed, open_, keys⟩
  · rcases old r' inside' live' with own' | ⟨other', -⟩
    · rw [own, own']
    · exact absurd (same.symm.trans (congrArg Prod.fst own)) other'
  · rcases old r' inside' live' with own' | ⟨other', o', listed', open', keys'⟩
    · exact absurd (same.trans (congrArg Prod.fst own')) other
    · rw [← keys, ← keys']
      apply one o listed o' listed' open_ open'
      exact (congrArg Prod.fst keys).trans (same.trans (congrArg Prod.fst keys').symm)

theorem settleRow_cases (id : Nat) (closing : Closing) (close : CloseColumns) (row : PickRow) :
    settleRow id closing close row = row ∨
      settleRow id closing close row = { row with status := closing.status, close := close } := by
  unfold settleRow
  split
  · exact .inr rfl
  · exact .inl rfl

theorem superseding_openPremium {instrument : Instrument} {version : Nat} {tier : Tier}
    {row : PickRow} (live : PickRow.OpenPremium (row.superseding instrument version tier)) :
    PickRow.OpenPremium row ∧ (row.superseding instrument version tier).status = .alerted := by
  obtain ⟨status, premium⟩ := live
  rw [superseding_tier] at premium
  rcases superseding_cases instrument version tier row with ⟨same, -⟩ | ⟨gone, -⟩
  · refine ⟨⟨?_, premium⟩, status⟩
    rwa [same] at status
  · rw [gone] at status
    cases status

section Writes
variable {picks picks' : PickTable} {keyed : picks.Keyed} {target : Target} {pick : PickOut}
  {numeric : Numeric}

theorem keyed_rewriteSlot {old row : PickRow} {inside : old ∈ picks.rows}
    {f : PickRow → PickRow} {ids : ∀ r, (f r).id = r.id} {keys : ∀ r, (f r).key = r.key}
    (id : row.id = old.id) (key : row.key = old.key) :
      ((picks.rewriteSlot keyed old inside f ids keys).fill row).Keyed := by
  apply keyed.map
  intro r listed
  by_cases own : r.id = old.id
  · rw [if_pos own, keyed.id_inj listed inside own]
    exact ⟨id, key⟩
  · rw [if_neg own]
    exact ⟨ids r, keys r⟩

theorem Write.keeps_keyed (write : Write numeric picks keyed target pick picks') :
    picks'.Keyed := by
  cases write with
  | untouched => exact keyed
  | inserted absent row ids keys live odds tier =>
    have superseded : PickTable.Keyed
        { picks with rows := picks.rows.map (PickRow.superseding (target.key pick).1
          (target.key pick).2 pick.tier) } :=
      keyed.map fun r _ => ⟨superseding_id, superseding_key⟩
    have new : ∀ r ∈ picks.rows.map
        (PickRow.superseding (target.key pick).1 (target.key pick).2 pick.tier),
        r.key ≠ row.key := by
      intro r inside
      obtain ⟨old, listed, rfl⟩ := List.mem_map.mp inside
      rw [superseding_key, keys]
      exact PickTable.find_none_iff.mp absent old listed
    exact @PickTable.Keyed.add _ (fun _ => row) superseded ids new
  | upgraded old inside own premium shadow row ids keys live odds =>
    exact keyed_rewriteSlot ids keys
  | repriced old inside own premium held open_ row ids keys live odds tier =>
    exact keyed_rewriteSlot ids keys

/-- The superseded rest of the table leaves nothing open beside the key of a premium pick. -/
theorem sole_of_superseding {r : PickRow} (key : Instrument × Nat) (inside : r ∈ picks.rows)
    (live : PickRow.OpenPremium (r.superseding key.1 key.2 .premium)) :
    (r.superseding key.1 key.2 .premium).key = key ∨
      ((r.superseding key.1 key.2 .premium).instrument ≠ key.1 ∧
        ∃ o ∈ picks.rows, PickRow.OpenPremium o ∧
          o.key = (r.superseding key.1 key.2 .premium).key) := by
  obtain ⟨open_, status⟩ := superseding_openPremium live
  have instrument : (r.superseding key.1 key.2 .premium).instrument = r.instrument :=
    congrArg Prod.fst superseding_key
  by_cases same : r.instrument = key.1
  · left
    rw [superseding_key]
    exact Prod.ext same (version_of_open status same)
  · right
    refine ⟨?_, r, inside, open_, superseding_key.symm⟩
    rw [instrument]
    exact same

theorem Write.onePremium (write : Write numeric picks keyed target pick picks')
    (one : OnePremium picks) : OnePremium picks' := by
  cases write with
  | untouched => exact one
  | inserted absent row ids keys live odds tier =>
    cases premium : pick.tier with
    | premium =>
      refine onePremium_of_sole one (target.key pick) ?_
      intro r' inside open_
      rcases List.mem_append.mp inside with old | new
      · obtain ⟨r, listed, rfl⟩ := List.mem_map.mp old
        exact sole_of_superseding _ listed open_
      · rw [List.mem_singleton.mp new]
        exact .inl keys
    | volume =>
      apply onePremium_of_old one
      intro r' inside open_
      rcases List.mem_append.mp inside with old | new
      · obtain ⟨r, listed, rfl⟩ := List.mem_map.mp old
        exact ⟨r, listed, (superseding_openPremium open_).1, superseding_key.symm⟩
      · rw [List.mem_singleton.mp new] at open_
        rw [premium, or_self] at tier
        rw [open_.2] at tier
        cases tier
  | upgraded old inside own premium shadow row ids keys live odds =>
    refine onePremium_of_sole one old.key ?_
    intro r' listed open_
    obtain ⟨r, member, rfl⟩ := List.mem_map.mp listed
    split
    · exact .inl keys
    · rename_i other
      rw [if_neg other] at open_
      exact sole_of_superseding old.key member open_
  | repriced old inside own premium held open_ row ids keys live odds tier =>
    apply onePremium_of_old one
    intro r' listed live'
    obtain ⟨r, member, rfl⟩ := List.mem_map.mp listed
    split
    · exact ⟨old, inside, ⟨open_, held⟩, keys.symm⟩
    · rename_i other
      rw [if_neg other] at live'
      exact ⟨r, member, live', rfl⟩

theorem Write.volume_keeps (write : Write numeric picks keyed target pick picks')
    (volume : pick.tier = .volume) {r : PickRow} (inside : r ∈ picks.rows)
    (premium : r.tier = .premium) : r ∈ picks'.rows := by
  cases write with
  | untouched => exact inside
  | inserted absent row ids keys live odds tier =>
    apply List.mem_append_left
    refine List.mem_map.mpr ⟨r, inside, ?_⟩
    rw [volume]
    exact superseding_premium premium
  | upgraded old inside own actionable shadow row ids keys live odds =>
    rw [volume] at actionable
    cases actionable
  | repriced old inside own actionable held open_ row ids keys live odds tier =>
    rw [volume] at actionable
    cases actionable

theorem Write.premium_stays (write : Write numeric picks keyed target pick picks') {r : PickRow}
    (inside : r ∈ picks.rows) (premium : r.tier = .premium) :
    ∃ r' ∈ picks'.rows, r'.id = r.id ∧ r'.tier = .premium := by
  cases write with
  | untouched => exact ⟨r, inside, rfl, premium⟩
  | inserted absent row ids keys live odds tier =>
    refine ⟨_, List.mem_append_left _ (List.mem_map_of_mem inside), superseding_id, ?_⟩
    rw [superseding_tier]
    exact premium
  | upgraded old member own actionable shadow row ids keys live odds =>
    have other : ¬ r.id = old.id := by
      intro same
      rw [keyed.id_inj inside member same, shadow] at premium
      cases premium
    refine ⟨_, List.mem_map_of_mem inside, ?_, ?_⟩
    · rw [if_neg other]
      exact superseding_id
    · rw [if_neg other, superseding_tier]
      exact premium
  | repriced old member own actionable held open_ row ids keys live odds tier =>
    refine ⟨_, List.mem_map_of_mem inside, ?_, ?_⟩
    · split
      · rename_i same
        exact ids.trans same.symm
      · rfl
    · split
      · exact tier
      · exact premium

end Writes

/-! The invariant of a run. -/

structure Sound (picks : PickTable) : Prop where
  keyed : picks.Keyed
  one : OnePremium picks

theorem Sound.write {picks picks' : PickTable} (sound : Sound picks) {target : Target}
    {pick : PickOut} {numeric : Numeric}
    (write : Write numeric picks sound.keyed target pick picks') : Sound picks' :=
  ⟨write.keeps_keyed, write.onePremium sound.one⟩

theorem sound_settle {picks : PickTable} (sound : Sound picks) (id : Nat) (closing : Closing)
    (close : CloseColumns) :
    Sound { picks with rows := picks.rows.map (settleRow id closing close) } := by
  constructor
  · apply sound.keyed.map
    intro r _
    rcases settleRow_cases id closing close r with same | moved
    · rw [same]
      exact ⟨rfl, rfl⟩
    · rw [moved]
      exact ⟨rfl, rfl⟩
  · apply onePremium_of_old sound.one
    intro r' inside live
    obtain ⟨r, listed, rfl⟩ := List.mem_map.mp inside
    rcases settleRow_cases id closing close r with same | moved
    · rw [same] at live ⊢
      exact ⟨r, listed, live, rfl⟩
    · rw [moved] at live
      cases closing <;> cases live.1

structure Respects [Unicode] (picks : PickTable) (t : Transaction) : Prop where
  volume : t.tier = some .volume → ∀ r ∈ picks.rows, r.tier = .premium →
    r ∈ (transact picks t).rows
  premium : ∀ r ∈ picks.rows, r.tier = .premium →
    ∃ r' ∈ (transact picks t).rows, r'.id = r.id ∧ r'.tier = .premium

section
variable [Unicode]

/-- A transaction settles a row, leaves the table alone or writes the row of its pick. -/
theorem transact_cases {picks : PickTable} (keyed : picks.Keyed) (t : Transaction) :
    (∃ id closing close, t = .settle id closing close) ∨ transact picks t = picks ∨
      ∃ numeric target pick, t.tier = some pick.tier ∧
        Write numeric picks keyed target pick (transact picks t) := by
  cases t with
  | reserve deps ledger target pick breakdown eventId now fault =>
    rcases persistAndReserve_writes keyed with same | ⟨found, -, write⟩
    · exact .inr (.inl same)
    · exact .inr (.inr ⟨deps.numeric, found, pick, rfl, write⟩)
  | shadow deps target pick now fault =>
    rcases maybePersist_writes keyed with same | ⟨found, -, write⟩
    · exact .inr (.inl same)
    · exact .inr (.inr ⟨deps.numeric, found, pick, rfl, write⟩)
  | settle id closing close => exact .inl ⟨id, closing, close, rfl⟩

theorem sound_transact {picks : PickTable} (sound : Sound picks) (t : Transaction) :
    Sound (transact picks t) := by
  rcases transact_cases sound.keyed t with ⟨id, closing, close, rfl⟩ | same | ⟨numeric,
    target, pick, -, write⟩
  · exact sound_settle sound id closing close
  · rw [same]
    exact sound
  · exact sound.write write

theorem respects_transact {picks : PickTable} (sound : Sound picks) (t : Transaction) :
    Respects picks t := by
  rcases transact_cases sound.keyed t with ⟨id, closing, close, rfl⟩ | same | ⟨numeric,
    target, pick, tier, write⟩
  · refine ⟨nofun, ?_⟩
    intro r inside premium
    refine ⟨_, List.mem_map_of_mem inside, ?_, ?_⟩
    · rcases settleRow_cases id closing close r with same | moved
      · rw [same]
      · rw [moved]
    · rcases settleRow_cases id closing close r with same | moved
      · rw [same, premium]
      · rw [moved]
        exact premium
  · refine ⟨?_, ?_⟩
    · intro _ r inside _
      rw [same]
      exact inside
    · intro r inside premium
      rw [same]
      exact ⟨r, inside, rfl, premium⟩
  · refine ⟨?_, ?_⟩
    · intro volume r inside premium
      rw [tier] at volume
      exact write.volume_keeps (Option.some.inj volume) inside premium
    · intro r inside premium
      exact write.premium_stays inside premium

omit [Unicode] in
theorem sound_empty : Sound emptyPicks := by
  refine ⟨⟨?_, List.nodup_nil, ?_⟩, ?_⟩
  · intro r inside
    cases inside
  · intro r inside
    cases inside
  · intro r inside
    cases inside

omit [Unicode] in
theorem length_filter_le_one {p : PickRow → Prop} [DecidablePred p] {picks : PickTable}
    (keyed : picks.Keyed)
    (same : ∀ r ∈ picks.rows, ∀ r' ∈ picks.rows, p r → p r' → r = r') :
    (picks.rows.filter fun r => p r).length ≤ 1 := by
  have nodup : (picks.rows.filter fun r => p r).Nodup :=
    keyed.ids.of_map.filter _
  match rows : picks.rows.filter fun r => p r with
  | [] => exact Nat.zero_le 1
  | [_] => exact le_refl 1
  | r :: r' :: rest =>
    rw [rows] at nodup
    have first : r ∈ picks.rows.filter fun r => p r := by simp [rows]
    have second : r' ∈ picks.rows.filter fun r => p r := by simp [rows]
    obtain ⟨inside, holds⟩ := List.mem_filter.mp first
    obtain ⟨inside', holds'⟩ := List.mem_filter.mp second
    have equal := same r inside r' inside' (by simpa using holds) (by simpa using holds')
    exact absurd (equal ▸ List.mem_cons_self) (List.nodup_cons.mp nodup).1

/-- After any transactions each key has one row and each instrument one open premium row; a
volume pick then leaves the premium rows as they are, and none of them becomes volume. -/
theorem transactions_onePremium (transactions : List Transaction) :
    (∀ key, ((Transition.run transact emptyPicks transactions).rows.filter fun r =>
      r.key = key).length ≤ 1) ∧
    (∀ instrument, ((Transition.run transact emptyPicks transactions).rows.filter fun r =>
      r.instrument = instrument ∧ PickRow.OpenPremium r).length ≤ 1) ∧
    ∀ t, Respects (Transition.run transact emptyPicks transactions) t := by
  have sound : Sound (Transition.run transact emptyPicks transactions) :=
    Transition.invariant (fun _ t sound => sound_transact sound t) sound_empty
  refine ⟨?_, ?_, fun t => respects_transact sound t⟩
  · intro key
    apply length_filter_le_one sound.keyed
    intro r inside r' inside' own own'
    exact sound.keyed.keys r inside r' inside' (own.trans own'.symm)
  · intro instrument
    apply length_filter_le_one sound.keyed
    intro r inside r' inside' own own'
    apply sound.keyed.keys r inside r' inside'
    exact sound.one r inside r' inside' own.2 own'.2 (own.1.trans own'.1.symm)

end
end SharpEvPicks.Pipeline
