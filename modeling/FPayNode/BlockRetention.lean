import FPayNode.BlockChain

/-!
Whether a created block stays readable. The id of a block is drawn from a
generator that `genBlockId` seeds again with the current second, so it is a
function of that second: two blocks of one second share their id and the later
one replaces the earlier one, with all its payments.
-/

namespace FPayNode.BlockRetention

open CommandProgram DecimalText RedisServer RedisCache Messages NodeService
open RootTransaction BlockCreation BlockRounds CerealJson

def seedOf (round : Round) : UInt32 := UInt32.ofNat round.moment.seconds

section Retention
variable (config : Config) (cereal : Cereal) (rand : UInt32 → Nat → Nat)
variable (throws : Bytes → Bool) (memory : Uninitialized)

/-- The rounds whose call finds transactions. -/
def creating : Servers → List Round → List Round
  | _, [] => []
  | servers, round :: rounds =>
      let later :=
        creating (after (serve throws) (playRound config cereal rand) servers round) rounds
      if Filled config servers round then round :: later else later

/-- Each block is read back under its id with its transactions. -/
def Kept (servers : Servers) (blocks : List Block) : Prop :=
  ∀ block ∈ blocks,
    (readBlock config cereal throws memory servers block._id).map Block._txList =
      some block._txList

instance (servers : Servers) (blocks : List Block) :
    Decidable (Kept config cereal throws memory servers blocks) :=
  inferInstanceAs (Decidable (∀ block ∈ _, _))

/-- The ids of the created blocks are distinct, and at every point of the run
all blocks created so far are kept. -/
def BlocksStay (start : Servers) (rounds : List Round) : Prop :=
  ((created config cereal rand throws start rounds).map Block._id).Nodup ∧
    ∀ earlier later, rounds = earlier ++ later →
      Kept config cereal throws memory
        (runAll (serve throws) (playRound config cereal rand) start earlier)
        (created config cereal rand throws start earlier)

/-- The id of whatever is read as the last block. -/
def lastNamed (servers : Servers) (memory : Uninitialized) : Bytes :=
  (cereal.block.fromString (storedText config servers config.lastBlockKey)
    (Block.fresh memory)).2._id

/-- Linking the last block does not write under the key. -/
def Spared (servers : Servers) (key : Bytes) : Prop :=
  key ≠ config.lastBlockKey ∧ ∀ memory, lastNamed config cereal servers memory ≠ key

theorem creating_append (earlier later : List Round) (servers : Servers) :
    creating config cereal rand throws servers (earlier ++ later) =
      creating config cereal rand throws servers earlier ++
        creating config cereal rand throws
          (runAll (serve throws) (playRound config cereal rand) servers earlier) later := by
  induction earlier generalizing servers with
  | nil => rfl
  | cons round earlier ih =>
      simp only [List.cons_append, creating, runAll_cons, ih]
      split
      · rfl
      · rfl

theorem creating_sublist (rounds : List Round) (servers : Servers) :
    (creating config cereal rand throws servers rounds).Sublist rounds := by
  induction rounds generalizing servers with
  | nil => exact List.Sublist.refl []
  | cons round rounds ih =>
      simp only [creating]
      split
      · exact (ih _).cons_cons round
      · exact (ih _).cons round

section Steps
variable (lawful : cereal.Lawful)
include lawful

theorem lastNamed_absent (servers : Servers)
    (absent : (servers config.dbService).lookup config.lastBlockKey = none) :
    lastNamed config cereal servers memory = [] := by
  have text : storedText config servers config.lastBlockKey = [] := by
    simp [storedText, absent]
  simp only [lastNamed, text, lawful.block.nothing]
  rfl

theorem lastNamed_held (servers : Servers) (block : Block) (clean : block.Clean)
    (held : Holds config cereal servers config.lastBlockKey block) :
    lastNamed config cereal servers memory = block._id := by
  simp only [lastNamed, storedText_of_holds config cereal servers _ _ held,
    lawful.block.round block _ clean]

variable (named : config.txPoolKey ≠ []) (servers : Servers) (round : Round)
  (succeeds : Succeeds throws servers (playRound config cereal rand round))
include named succeeds

/-- The last block is named as before, or not at all, or by its own key. -/
theorem lastNamed_step
    (apart : Filled config servers round → config.lastBlockKey ≠ round.id rand) :
    lastNamed config cereal
        (after (serve throws) (playRound config cereal rand) servers round) memory ∈
      [lastNamed config cereal servers memory, [], config.lastBlockKey] := by
  have same (kept : (after (serve throws) (playRound config cereal rand) servers round
        config.dbService).lookup config.lastBlockKey =
          if AtPool config config.dbService config.lastBlockKey then none
          else (servers config.dbService).lookup config.lastBlockKey) :
      lastNamed config cereal
          (after (serve throws) (playRound config cereal rand) servers round) memory ∈
        [lastNamed config cereal servers memory, [], config.lastBlockKey] := by
    by_cases pool : AtPool config config.dbService config.lastBlockKey
    · rw [if_pos pool] at kept
      simp [lastNamed_absent config cereal memory lawful _ kept]
    · rw [if_neg pool] at kept
      simp [lastNamed, storedText, kept]
  by_cases filled : Filled config servers round
  · have stored := (run_filled config cereal rand throws lawful named servers round filled
      succeeds).2 config.lastBlockKey
    by_cases linked : (lastRead config cereal servers round)._id ≠ [] ∧
        config.lastBlockKey = (lastRead config cereal servers round)._id
    · rw [if_pos linked] at stored
      -- The last block lies under its own id, so linking it rewrites it there.
      have readClean := lawful.block.loaded (storedText config servers config.lastBlockKey) _
        (Block.fresh_clean (round.moment.memory 1))
      have linkedClean : (linkedBlock rand round.moment
          (lastRead config cereal servers round)).Clean :=
        ⟨readClean.1, readClean.2.1, genBlockId_clean rand _, readClean.2.2.2⟩
      rw [lastNamed_held config cereal memory lawful _ _ linkedClean
        ⟨by rw [linked.2]; exact linked.1, stored⟩]
      simp [linkedBlock, ← linked.2]
    · rw [if_neg linked, if_neg (apart filled)] at stored
      exact same stored
  · exact same ((run_unfilled config cereal rand throws named servers round filled
      succeeds).2 config.lastBlockKey)

theorem spared_step (key : Bytes) (nonempty : key ≠ [])
    (apart : Filled config servers round → config.lastBlockKey ≠ round.id rand)
    (spared : Spared config cereal servers key) :
    Spared config cereal
      (after (serve throws) (playRound config cereal rand) servers round) key := by
  refine ⟨spared.1, fun memory named_ => ?_⟩
  have cases_ := lastNamed_step config cereal rand throws memory lawful named servers round
    succeeds apart
  rw [named_] at cases_
  simp only [List.mem_cons, List.not_mem_nil, or_false] at cases_
  rcases cases_ with before | empty | own
  · exact spared.2 memory before.symm
  · exact nonempty empty
  · exact spared.1 own

end Steps

section Runs
variable (lawful : cereal.Lawful) (named : config.txPoolKey ≠ [])
include lawful named

theorem created_ids (rounds : List Round) (servers : Servers)
    (succeed : AllSucceed throws servers (playRound config cereal rand) rounds) :
    (created config cereal rand throws servers rounds).map Block._id =
      (creating config cereal rand throws servers rounds).map (Round.id rand) := by
  induction rounds generalizing servers with
  | nil => rfl
  | cons round rounds ih =>
      have rest := ih _ succeed.2
      simp only [creating]
      by_cases filled : Filled config servers round
      · rw [created_filled config cereal rand throws lawful named servers round succeed.1 filled,
          if_pos filled, List.map_cons, List.map_cons, rest, newBlock_id]
      · rw [created_unfilled config cereal rand throws named servers round succeed.1 filled,
          if_neg filled, rest]

/-- A text that is neither relinked nor replaced by a new block stays. -/
theorem text_stays (key text : Bytes) (nonempty : key ≠ []) (rounds : List Round)
    (servers : Servers)
    (succeed : AllSucceed throws servers (playRound config cereal rand) rounds)
    (found : (servers config.dbService).lookup key = some (.string text))
    (spared : Spared config cereal servers key)
    (others : ∀ round ∈ creating config cereal rand throws servers rounds,
      config.lastBlockKey ≠ round.id rand ∧ key ≠ round.id rand) :
    (runAll (serve throws) (playRound config cereal rand) servers rounds
      config.dbService).lookup key = some (.string text) := by
  induction rounds generalizing servers with
  | nil => exact found
  | cons round rounds ih =>
      have here : Filled config servers round →
          config.lastBlockKey ≠ round.id rand ∧ key ≠ round.id rand := by
        intro filled
        exact others round (by simp [creating, filled])
      apply ih _ succeed.2
      · exact round_keeps_text config cereal rand throws lawful named servers round succeed.1 key
          text found (fun filled => (here filled).2) fun last => spared.2 _ last.symm
      · exact spared_step config cereal rand throws lawful named servers round succeed.1 key
          nonempty (fun filled => (here filled).1) spared
      · intro later member
        apply others later
        simp only [creating]
        split
        · exact List.mem_cons_of_mem _ member
        · exact member

/-- Blocks with distinct ids are all kept. -/
theorem created_kept (rounds : List Round) (servers : Servers)
    (succeed : AllSucceed throws servers (playRound config cereal rand) rounds)
    (fresh : ∀ round ∈ creating config cereal rand throws servers rounds,
      Spared config cereal servers (round.id rand))
    (distinct : ((creating config cereal rand throws servers rounds).map
      (Round.id rand)).Nodup) :
    Kept config cereal throws memory
      (runAll (serve throws) (playRound config cereal rand) servers rounds)
      (created config cereal rand throws servers rounds) := by
  induction rounds generalizing servers with
  | nil => simp [Kept, created]
  | cons round rounds ih =>
      -- The new block lies under a fresh id, which no later round writes under.
      by_cases filled : Filled config servers round
      · simp only [creating, filled, ↓reduceIte, List.map_cons, List.nodup_cons,
          List.forall_mem_cons] at fresh distinct
        have spared (next : Round) (now : Spared config cereal servers (next.id rand)) :
            Spared config cereal
              (after (serve throws) (playRound config cereal rand) servers round)
              (next.id rand) :=
          spared_step config cereal rand throws lawful named servers round succeed.1 _
            (genBlockId_ne_nil rand _) (fun _ => fresh.1.1.symm) now
        have stored := round_stores_new config cereal rand throws lawful named servers round
          succeed.1 filled fun last => fresh.1.2 _ last.symm
        have kept := text_stays config cereal rand throws lawful named (round.id rand) _
          (genBlockId_ne_nil rand _) rounds _ succeed.2 stored.2 (spared round fresh.1)
          fun next member => ⟨(fresh.2 next member).1.symm, fun same =>
            distinct.1 (by rw [same]; exact List.mem_map_of_mem member)⟩
        rw [created_filled config cereal rand throws lawful named servers round succeed.1 filled]
        refine List.forall_mem_cons.mpr ⟨?_, ih _ succeed.2
          (fun next member => spared next (fresh.2 next member)) distinct.2⟩
        rw [newBlock_id, runAll_cons, readBlock_of_holds config cereal throws lawful memory _ _ _
          (newBlock_clean config cereal rand lawful servers round) ⟨stored.1, kept⟩]
        rfl
      · simp only [creating, filled, ↓reduceIte] at fresh distinct
        rw [created_unfilled config cereal rand throws named servers round succeed.1 filled]
        exact ih _ succeed.2 (fun next member =>
          spared_step config cereal rand throws lawful named servers round succeed.1 _
            (genBlockId_ne_nil rand _) (fun passed => absurd passed filled)
            (fresh next member)) distinct

end Runs

/-- The generator gives different ids for the different seeds of the run. -/
def Separates (rounds : List Round) : Prop :=
  ∀ first ∈ rounds, ∀ second ∈ rounds, first.id rand = second.id rand →
    seedOf first = seedOf second

theorem ids_distinct_iff (rounds : List Round) (separates : Separates rand rounds) :
    (rounds.map (Round.id rand)).Nodup ↔ (rounds.map seedOf).Nodup := by
  constructor
  · intro distinct
    have seeded : rounds.map (Round.id rand) =
        (rounds.map seedOf).map fun seed =>
          (List.range 63).map fun i => randChar (rand seed i) := by
      rw [List.map_map]
      rfl
    rw [seeded] at distinct
    exact distinct.of_map _
  · intro distinct
    refine List.Nodup.map_on ?_ (distinct.of_map seedOf)
    intro first member second other same
    exact List.inj_on_of_nodup_map distinct member other (separates first member second other same)

/-- Every created block stays readable exactly when no two of them are made
in the same second. -/
theorem blocks_stay_iff (lawful : cereal.Lawful) (named : config.txPoolKey ≠ [])
    (start : Servers) (rounds : List Round)
    (succeed : AllSucceed throws start (playRound config cereal rand) rounds)
    (fresh : ∀ round ∈ creating config cereal rand throws start rounds,
      Spared config cereal start (round.id rand))
    (separates : Separates rand (creating config cereal rand throws start rounds)) :
    BlocksStay config cereal rand throws memory start rounds ↔
      ((creating config cereal rand throws start rounds).map seedOf).Nodup := by
  rw [← ids_distinct_iff rand _ separates,
    ← created_ids config cereal rand throws lawful named rounds start succeed]
  constructor
  · exact fun stays => stays.1
  · intro distinct
    refine ⟨distinct, fun earlier later parts => ?_⟩
    subst parts
    rw [created_ids config cereal rand throws lawful named _ start succeed, creating_append,
      List.map_append] at distinct
    rw [creating_append] at fresh
    exact created_kept config cereal rand throws memory lawful named earlier start
      ((throughout_append _ _ _ _ earlier later).mp succeed).1
      (fun round member => fresh round (List.mem_append_left _ member)) distinct.of_append_left

end Retention

theorem shipped_spared (round : Round) :
    Spared rootServerConf cerealJson BlockChain.shippedStart (round.id glibcRand) := by
  refine ⟨(BlockChain.shipped_fresh round).2, fun memory same => ?_⟩
  rw [lastNamed_absent rootServerConf cerealJson memory cerealJson_lawful _
    (Finmap.lookup_insert_of_ne _ (by decide +kernel))] at same
  exact genBlockId_ne_nil glibcRand round.moment.seconds same.symm

/-- Two payments, each in a block of its own. -/
def twoRounds (first second : Nat) : List Round :=
  [BlockChain.paymentRound "t1" 4 first, BlockChain.paymentRound "t2" 6 second]

theorem blocks_stay_iff_next_second :
    BlocksStay rootServerConf cerealJson glibcRand (fun _ => false) ⟨0, 0⟩
      BlockChain.shippedStart (twoRounds 1530000000 1530000001) := by
  have sub := creating_sublist rootServerConf cerealJson glibcRand (fun _ => false)
    (twoRounds 1530000000 1530000001) BlockChain.shippedStart
  have different : genBlockId glibcRand 1530000000 ≠ genBlockId glibcRand 1530000001 := by
    intro same
    have letter := congrArg List.head? same
    revert letter
    decide +kernel
  have separates : Separates glibcRand (twoRounds 1530000000 1530000001) := by
    intro first member second other same
    simp only [twoRounds, List.mem_cons, List.not_mem_nil, or_false] at member other
    rcases member with rfl | rfl <;> rcases other with rfl | rfl
    · rfl
    · exact absurd same different
    · exact absurd same.symm different
    · rfl
  exact (blocks_stay_iff rootServerConf cerealJson glibcRand (fun _ => false) ⟨0, 0⟩
    cerealJson_lawful (by decide) BlockChain.shippedStart (twoRounds 1530000000 1530000001)
    ⟨by decide +kernel, by decide +kernel, trivial⟩ (fun round _ => shipped_spared round)
    fun first member second other =>
      separates first (sub.subset member) second (sub.subset other)).mpr
    ((sub.map seedOf).nodup (by decide +kernel))

/-- Two blocks of the same second: all commands succeed, and the first block
can no longer be read. -/
theorem same_second_replaces :
    AllSucceed (fun _ => false) BlockChain.shippedStart
      (playRound rootServerConf cerealJson glibcRand) (twoRounds 1530000000 1530000000) ∧
    ¬ BlocksStay rootServerConf cerealJson glibcRand (fun _ => false) ⟨0, 0⟩
      BlockChain.shippedStart (twoRounds 1530000000 1530000000) := by
  refine ⟨⟨by decide +kernel, by decide +kernel, trivial⟩, fun stays => ?_⟩
  have replaced : ¬ Kept rootServerConf cerealJson (fun _ => false) ⟨0, 0⟩
      (runAll (serve fun _ => false) (playRound rootServerConf cerealJson glibcRand)
        BlockChain.shippedStart (twoRounds 1530000000 1530000000))
      (created rootServerConf cerealJson glibcRand (fun _ => false) BlockChain.shippedStart
        (twoRounds 1530000000 1530000000)) := by
    decide +kernel
  exact replaced (stays.2 _ [] (List.append_nil _).symm)

end FPayNode.BlockRetention
