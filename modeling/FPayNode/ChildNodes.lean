import FPayNode.CerealJson
import FPayNode.ServerAddresses

/-!
The child nodes of a node. `handleLogin` adds each message to a set as it came,
whatever its action is, and `broadcast` sends to every member of the set.
-/

namespace FPayNode.ChildNodes

open CommandProgram DecimalText RedisServer RedisCache Messages NodeService CerealJson
open BuilderLock (sendToThrows)
open ServerAddresses

def kActionLogin : UInt32 := 0

def kActionLogout : UInt32 := 1

structure Response where
  _status : Int32
  _address : Bytes
  _desc : Bytes
  deriving DecidableEq

def Response.fresh : Response := ⟨0, [], []⟩

def NodeClean (info : NodeInfo) : Prop := CString info._address ∧ CString info._hostport

instance (info : NodeInfo) : Decidable (NodeClean info) := inferInstanceAs (Decidable (_ ∧ _))

section Service
variable (config : Config) (cereal : Cereal)

/-- `FPReqHandler::onNodeAction`, with the response that it answers. A login that
was refused is answered like any other. -/
def onNodeAction (req : NodeInfo) : Calls Response := do
  let rsp := Response.fresh
  if ← handleLogin config cereal req then pure { rsp with _status := 0 } else pure rsp

/-- The node's most recent message was a login. -/
def LoggedIn (messages : List NodeInfo) (hostport : Bytes) : Prop :=
  ∃ info, (messages.filter fun info => info._hostport = hostport).getLast? = some info ∧
    info._action = kActionLogin

instance (messages : List NodeInfo) (hostport : Bytes) : Decidable (LoggedIn messages hostport) :=
  decidable_of_iff
    ((messages.filter fun info => info._hostport = hostport).getLast?.any
      fun info => info._action = kActionLogin)
    (by simp [LoggedIn, Option.any_eq_true])

/-- Where a block is sent to. -/
def sentTo (block : Block) (commands : List (Effect × Answer)) : List Bytes :=
  commands.filterMap fun
    | (.sendTo hostport uri body, _) =>
        if uri = Block.uri ∧ body = cereal.block.toString block then some hostport else none
    | _ => none

/-- What a broadcast sends when these messages have been handled. -/
def broadcastAfter (servers : Servers) (messages : List NodeInfo) (block : Block) : List Bytes :=
  sentTo cereal block (trace (serve sendToThrows) (broadcast config cereal block)
    (runAll (serve sendToThrows) (onNodeAction config cereal) servers messages))

/-- The messages, each kept where it comes first. -/
def register (known : List NodeInfo) (info : NodeInfo) : List NodeInfo :=
  if info ∈ known then known else known ++ [info]

def registered (messages : List NodeInfo) : List NodeInfo := messages.foldl register []

/-- The record of the set. -/
def childRecord (known : List NodeInfo) : Option Value :=
  if known = [] then none else some (.set (known.map cereal.node.toString))

theorem mem_register (known : List NodeInfo) (info other : NodeInfo) :
    other ∈ register known info ↔ other ∈ known ∨ other = info := by
  simp only [register]
  split
  · next member =>
      constructor
      · exact .inl
      · rintro (old | rfl)
        · exact old
        · exact member
  · simp

theorem register_nodup (known : List NodeInfo) (info : NodeInfo) (nodup : known.Nodup) :
    (register known info).Nodup := by
  simp only [register]
  split
  · exact nodup
  · next fresh =>
      refine List.nodup_append.mpr ⟨nodup, List.nodup_singleton _, fun old member new single => ?_⟩
      obtain rfl := List.mem_singleton.mp single
      rintro rfl
      exact fresh member

theorem mem_registered (messages : List NodeInfo) (info : NodeInfo) :
    info ∈ registered messages ↔ info ∈ messages := by
  suffices fold : ∀ known, info ∈ messages.foldl register known ↔ info ∈ known ∨ info ∈ messages by
    exact (fold []).trans (by simp)
  induction messages with
  | nil => simp
  | cons first rest ih =>
      intro known
      rw [List.foldl_cons, ih, mem_register, List.mem_cons, or_assoc]

theorem registered_nodup (messages : List NodeInfo) : (registered messages).Nodup := by
  suffices fold : ∀ known : List NodeInfo, known.Nodup → (messages.foldl register known).Nodup from
    fold [] List.nodup_nil
  induction messages with
  | nil => exact fun _ nodup => nodup
  | cons first rest ih => exact fun known nodup => ih _ (register_nodup known first nodup)

/-- The last message of a node. -/
theorem last_exists (messages : List NodeInfo) (info : NodeInfo) (member : info ∈ messages) :
    ∃ last ∈ messages, last._hostport = info._hostport ∧
      (messages.filter fun other => other._hostport = info._hostport).getLast? = some last := by
  have inside : info ∈ messages.filter fun other => other._hostport = info._hostport := by
    simp [member]
  obtain ⟨last, found⟩ := Option.ne_none_iff_exists'.mp
    (mt List.getLast?_eq_none_iff.mp (List.ne_nil_of_mem inside))
  obtain ⟨there, same⟩ := List.mem_filter.mp (List.mem_of_getLast? found)
  exact ⟨last, there, by simpa using same, found⟩

theorem counts_iff (messages : List NodeInfo) :
    (∀ hostport, ((registered messages).map NodeInfo._hostport).count hostport =
      if LoggedIn messages hostport then 1 else 0) ↔
    (∀ info ∈ messages, info._action = kActionLogin) ∧
      ∀ info ∈ messages, ∀ other ∈ messages, info._hostport = other._hostport → info = other := by
  constructor
  · intro counts
    have once : ((registered messages).map NodeInfo._hostport).Nodup := by
      rw [List.nodup_iff_count_le_one]
      intro hostport
      rw [counts hostport]
      split <;> omega
    have single : ∀ info ∈ messages, ∀ other ∈ messages,
        info._hostport = other._hostport → info = other := fun info member other there same =>
      List.inj_on_of_nodup_map once ((mem_registered messages info).mpr member)
        ((mem_registered messages other).mpr there) same
    refine ⟨fun info member => ?_, single⟩
    have sent : info._hostport ∈ (registered messages).map NodeInfo._hostport :=
      List.mem_map_of_mem ((mem_registered messages info).mpr member)
    have logged : LoggedIn messages info._hostport := by
      by_contra away
      have nobody := counts info._hostport
      rw [if_neg away] at nobody
      exact List.count_eq_zero.mp nobody sent
    obtain ⟨last, there, same, found⟩ := last_exists messages info member
    obtain ⟨latest, isLast, login⟩ := logged
    rw [found] at isLast
    cases isLast
    rwa [single info member last there same.symm]
  · rintro ⟨logins, single⟩ hostport
    have once : ((registered messages).map NodeInfo._hostport).Nodup :=
      (registered_nodup messages).map_on fun info member other there same =>
        single info ((mem_registered messages info).mp member) other
          ((mem_registered messages other).mp there) same
    by_cases sent : hostport ∈ (registered messages).map NodeInfo._hostport
    · obtain ⟨info, member, rfl⟩ := List.mem_map.mp sent
      obtain ⟨last, there, -, found⟩ :=
        last_exists messages info ((mem_registered messages info).mp member)
      rw [if_pos ⟨last, found, logins last there⟩, List.count_eq_one_of_mem once sent]
    · rw [if_neg, List.count_eq_zero.mpr sent]
      rintro ⟨last, found, -⟩
      obtain ⟨there, same⟩ := List.mem_filter.mp (List.mem_of_getLast? found)
      apply sent
      rw [← show last._hostport = hostport by simpa using same]
      exact List.mem_map_of_mem ((mem_registered messages last).mpr there)

/-! Handling the messages. -/

section Lawful
variable (lawful : cereal.node.Lawful NodeClean)
include lawful

/-- Records that differ have different texts. -/
theorem toString_injective (info other : NodeInfo) (clean : NodeClean info)
    (otherClean : NodeClean other)
    (same : cereal.node.toString info = cereal.node.toString other) : info = other := by
  have first := lawful.round info NodeInfo.fresh clean
  rw [same, lawful.round other NodeInfo.fresh otherClean] at first
  exact (congrArg Prod.snd first).symm

theorem after_onNodeAction (servers : Servers) (known : List NodeInfo) (info : NodeInfo)
    (clean : ∀ other ∈ info :: known, NodeClean other)
    (record : (servers config.cacheService).lookup config.childNodesKey =
      childRecord cereal known) :
    (after (serve sendToThrows) (onNodeAction config cereal) servers info
      config.cacheService).lookup config.childNodesKey =
      childRecord cereal (register known info) := by
  have texts : cereal.node.toString info ∈ known.map cereal.node.toString ↔ info ∈ known := by
    constructor
    · intro member
      obtain ⟨other, inside, same⟩ := List.mem_map.mp member
      rwa [← toString_injective cereal lawful other info
        (clean other (List.mem_cons_of_mem _ inside)) (clean info List.mem_cons_self) same]
    · exact List.mem_map_of_mem
  have written := lawful.nonempty info
  have added : (after (serve sendToThrows) (onNodeAction config cereal) servers info
      config.cacheService) =
      (exec (.sadd config.childNodesKey (cereal.node.toString info))
        (servers config.cacheService)).2 := by
    simp only [after, onNodeAction, handleLogin, List.isEmpty_iff, written, ↓reduceIte,
      addToSet_form, Program.issue_bind, Program.finish_bind, run_issue, serve]
    by_cases stored : integerAnswer (.reply (exec (.sadd config.childNodesKey
        (cereal.node.toString info)) (servers config.cacheService)).1) = true
    · simp [stored]
    · simp [stored]
  rw [added]
  simp only [childRecord, register] at record ⊢
  by_cases empty : known = []
  · simp [exec, record, empty]
  · rw [if_neg empty] at record
    by_cases member : info ∈ known
    · simp [exec, record, texts, member, empty]
    · simp [exec, record, texts, member]

theorem runAll_onNodeAction (messages : List NodeInfo) (servers : Servers)
    (known : List NodeInfo) (clean : ∀ info ∈ known ++ messages, NodeClean info)
    (record : (servers config.cacheService).lookup config.childNodesKey =
      childRecord cereal known) :
    (runAll (serve sendToThrows) (onNodeAction config cereal) servers messages
      config.cacheService).lookup config.childNodesKey =
      childRecord cereal (messages.foldl register known) := by
  induction messages generalizing servers known with
  | nil => exact record
  | cons info rest ih =>
      rw [runAll_cons, List.foldl_cons]
      apply ih
      · intro other member
        rcases List.mem_append.mp member with old | new
        · rcases (mem_register known info other).mp old with before | rfl
          · exact clean other (List.mem_append_left _ before)
          · exact clean other (List.mem_append_right _ List.mem_cons_self)
        · exact clean other (List.mem_append_right _ (List.mem_cons_of_mem _ new))
      · apply after_onNodeAction config cereal lawful servers known info _ record
        intro other member
        apply clean
        rcases List.mem_cons.mp member with rfl | old
        · exact List.mem_append_right _ List.mem_cons_self
        · exact List.mem_append_left _ old

/-! The broadcast. -/

/-- A block goes to every member, since no port makes `sendTo` throw. -/
theorem trace_sendAll (block : Block) (known : List NodeInfo) (servers : Servers)
    (clean : ∀ info ∈ known, NodeClean info)
    (converts : ∀ info ∈ known, sendToThrows info._hostport = false) :
    sentTo cereal block (trace (serve sendToThrows)
      (sendAll cereal block (known.map cereal.node.toString)) servers) =
      known.map NodeInfo._hostport := by
  induction known generalizing servers with
  | nil => rfl
  | cons info rest ih =>
      have read := lawful.round info NodeInfo.fresh (clean info List.mem_cons_self)
      have tail := ih servers (fun other member => clean other (List.mem_cons_of_mem _ member))
        fun other member => converts other (List.mem_cons_of_mem _ member)
      simp only [List.map_cons, sendAll, read, Program.perform_bind, trace_issue, serve,
        converts info List.mem_cons_self, Bool.false_eq_true, ↓reduceIte]
      simp only [sentTo, List.filterMap_cons, and_self, ↓reduceIte] at tail ⊢
      rw [tail]

theorem broadcastAfter_registered (servers : Servers) (messages : List NodeInfo) (block : Block)
    (nobody : (servers config.cacheService).lookup config.childNodesKey = none)
    (clean : ∀ info ∈ messages, NodeClean info)
    (converts : ∀ info ∈ messages, sendToThrows info._hostport = false) :
    broadcastAfter config cereal servers messages block =
      (registered messages).map NodeInfo._hostport := by
  have record := runAll_onNodeAction config cereal lawful messages servers [] (by simpa using clean)
    (by simpa [childRecord] using nobody)
  have members : exec (.smembers config.childNodesKey)
      (runAll (serve sendToThrows) (onNodeAction config cereal) servers messages
        config.cacheService) =
      (.array ((registered messages).map cereal.node.toString),
        runAll (serve sendToThrows) (onNodeAction config cereal) servers messages
          config.cacheService) := by
    simp only [exec, record, childRecord]
    by_cases empty : messages.foldl register [] = []
    · simp [registered, empty]
    · simp only [empty, ↓reduceIte]
      rfl
  simp only [broadcastAfter, broadcast, getMembers_form, Program.issue_bind, trace_issue, serve,
    members, itemsOf, Program.finish_bind, List.nil_append, Function.update_eq_self]
  rw [sentTo, List.filterMap_cons_none rfl]
  by_cases empty : (registered messages).map cereal.node.toString = []
  · have nobody : registered messages = [] := List.map_eq_nil_iff.mp empty
    simp [nobody]
  · have somebody : ((registered messages).map cereal.node.toString).isEmpty = false := by
      simpa using empty
    simp only [somebody, Bool.not_true, Bool.or_self, Bool.false_eq_true, ↓reduceIte]
    exact trace_sendAll cereal lawful block _ _
      (fun info member => clean info ((mem_registered messages info).mp member))
      fun info member => converts info ((mem_registered messages info).mp member)

/-- A broadcast sends once to everybody who is logged in and to nobody else, if
and only if no message was a logout and each node always sent the same one. -/
theorem broadcast_reaches_iff (servers : Servers) (messages : List NodeInfo) (block : Block)
    (none_ : (servers config.cacheService).lookup config.childNodesKey = none)
    (clean : ∀ info ∈ messages, NodeClean info)
    (wellFormed : ∀ info ∈ messages, ∃ host port, HostPort info._hostport host port) :
    (∀ hostport, (broadcastAfter config cereal servers messages block).count hostport =
      if LoggedIn messages hostport then 1 else 0) ↔
    (∀ info ∈ messages, info._action = kActionLogin) ∧
      ∀ info ∈ messages, ∀ other ∈ messages, info._hostport = other._hostport → info = other := by
  rw [broadcastAfter_registered config cereal lawful servers messages block none_ clean
    fun info member => by
      obtain ⟨host, port, address⟩ := wellFormed info member
      exact hostPort_sends _ _ _ address]
  exact counts_iff messages

end Lawful
end Service

theorem nodeMembers_valid (info : NodeInfo) : nodeMembers.Valid info :=
  ⟨trivial, trivial, trivial, trivial⟩

theorem cerealJson_nodes : cerealJson.node.Lawful NodeClean :=
  codec_lawful nodeMembers cNode NodeClean nodeMembers_valid
    (fun _ => ⟨cString_clean _, cString_clean _⟩)
    fun info clean => by simp [cNode, cString_of_clean _ clean.1, cString_of_clean _ clean.2]

/-- A message of a node at one address. -/
def action (timestamp : UInt64) (action : UInt32) : NodeInfo :=
  ⟨ascii "miner", ascii "127.0.0.1:9091", timestamp, action⟩

theorem action_hostPort (timestamp : UInt64) (act : UInt32) :
    HostPort (action timestamp act)._hostport (ascii "127.0.0.1") 9091 :=
  ⟨⟨ascii "9091", rfl, by decide, by decide +kernel, by decide +kernel⟩, by decide, by decide,
    by decide⟩

def otherLogin : NodeInfo := ⟨ascii "miner2", ascii "127.0.0.1:9092", 3, kActionLogin⟩

/-- Two nodes log in, and the first one sends the same message again. -/
def sameAgain : List NodeInfo := [action 1 kActionLogin, otherLogin, action 1 kActionLogin]

theorem sameAgain_addresses (info : NodeInfo) (member : info ∈ sameAgain) :
    ∃ host port, HostPort info._hostport host port := by
  simp only [sameAgain, List.mem_cons, List.not_mem_nil, or_false] at member
  rcases member with rfl | rfl | rfl
  · exact ⟨_, _, action_hostPort _ _⟩
  · exact ⟨ascii "127.0.0.1", 9092, ⟨ascii "9092", rfl, by decide, by decide +kernel,
      by decide +kernel⟩, by decide, by decide, by decide⟩
  · exact ⟨_, _, action_hostPort _ _⟩

theorem broadcast_reaches_iff_sameAgain :
    let sent := broadcastAfter rootServerConf cerealJson (fun _ => ∅) sameAgain (Block.fresh ⟨0, 0⟩)
    (∀ hostport, sent.count hostport = if LoggedIn sameAgain hostport then 1 else 0) ∧
      sent.count (ascii "127.0.0.1:9091") = 1 ∧ sent.count (ascii "127.0.0.1:9092") = 1 := by
  have counts := (broadcast_reaches_iff rootServerConf cerealJson cerealJson_nodes (fun _ => ∅)
    sameAgain (Block.fresh ⟨0, 0⟩) rfl (by decide) sameAgain_addresses).mpr ⟨by decide, by decide⟩
  have first : LoggedIn sameAgain (ascii "127.0.0.1:9091") := ⟨action 1 kActionLogin, by decide⟩
  have second : LoggedIn sameAgain (ascii "127.0.0.1:9092") := ⟨otherLogin, by decide⟩
  exact ⟨counts, (counts _).trans (if_pos first), (counts _).trans (if_pos second)⟩

/-- What is sent to a node that was heard of twice. -/
theorem broadcastAfter_two (act : UInt32) :
    broadcastAfter rootServerConf cerealJson (fun _ => ∅) [action 1 kActionLogin, action 2 act]
        (Block.fresh ⟨0, 0⟩) =
      (registered [action 1 kActionLogin, action 2 act]).map NodeInfo._hostport := by
  have clean (timestamp : UInt64) (act : UInt32) : NodeClean (action timestamp act) :=
    ⟨show CString (ascii "miner") by decide, show CString (ascii "127.0.0.1:9091") by decide⟩
  have converts (timestamp : UInt64) (act : UInt32) :
      sendToThrows (action timestamp act)._hostport = false :=
    hostPort_sends _ _ _ (action_hostPort timestamp act)
  exact broadcastAfter_registered rootServerConf cerealJson cerealJson_nodes (fun _ => ∅) _ _ rfl
    (by simp [clean]) (by simp [converts])

/-- A node that logs in twice gets two copies, and one that logs out goes on
getting them. -/
theorem repeated_login_sends_twice :
    (¬ ∀ hostport, (broadcastAfter rootServerConf cerealJson (fun _ => ∅)
        [action 1 kActionLogin, action 2 kActionLogin] (Block.fresh ⟨0, 0⟩)).count hostport =
      if LoggedIn [action 1 kActionLogin, action 2 kActionLogin] hostport then 1 else 0) ∧
    ¬ ∀ hostport, (broadcastAfter rootServerConf cerealJson (fun _ => ∅)
        [action 1 kActionLogin, action 2 kActionLogout] (Block.fresh ⟨0, 0⟩)).count hostport =
      if LoggedIn [action 1 kActionLogin, action 2 kActionLogout] hostport then 1 else 0 := by
  constructor
  · intro counts
    have copies := counts (ascii "127.0.0.1:9091")
    rw [broadcastAfter_two] at copies
    revert copies
    decide
  · intro counts
    have copies := counts (ascii "127.0.0.1:9091")
    rw [broadcastAfter_two] at copies
    revert copies
    decide

end FPayNode.ChildNodes
