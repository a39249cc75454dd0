import FPayNode.NodeRequests

/-!
The JSON texts of the requests and answers of a node, in the layout of its other
records. With these the conversions of every record that nodes exchange are
there, each read back as it was written.
-/

namespace FPayNode.RequestJson

open DecimalText TextLayout Messages ChildNodes BlockSync CerealJson NodeRequests

def int32 : Layout Int32 :=
  number.convert Int32.ofInt Int32.toInt fun n _ => Int32.ofInt_toInt n

theorem brackets_apart : ∃ byte rest, ([91, 93] : Bytes) = byte :: rest ∧ isDigit byte = false :=
  ⟨91, [93], rfl, by decide⟩

/-- A list of records, each with its members at `indent + 8`. -/
def listAt {Item : Type} (indent : Nat) (members : Layout Item) : Layout (List Item) :=
  Layout.array
    { empty := ⟨[91, 93], brackets_apart⟩
      opening := ⟨91 :: 10 :: blanks (indent + 4), _, _, rfl, by decide⟩
      comma := ⟨44 :: 10 :: blanks (indent + 4), _, _, rfl, by decide⟩
      close := closed indent 93
      emptyApart := fun _ => rfl
      commaApart := fun _ => rfl }
    members

def blockAt (indent close : Nat) : Layout Block :=
  Layout.after (opened indent "\"id\": ")
    (((quoted.followedBy (next indent "\"prev\": ")
      (quoted.followedBy (next indent "\"next\": ")
        (quoted.followedBy (next indent "\"ts\": ")
          (uint64.followedBy (next indent "\"txs\": ")
            (listAt indent (transactionAt (indent + 8) (indent + 4))))))).convert
      (fun t => (⟨t.1, t.2.1, t.2.2.1, t.2.2.2.1, t.2.2.2.2⟩ : Block))
      (fun block => (block._id, block._prev, block._next, block._timestamp, block._txList))
      (fun _ _ => rfl)).before (closed close 125))

def queryMembers : Layout QueryBalance :=
  Layout.after (opened 8 "\"addr\": ")
    ((quoted.convert (fun address => (⟨address⟩ : QueryBalance)) QueryBalance._address
      (fun _ _ => rfl)).before (closed 4 125))

def responseMembers : Layout Response :=
  Layout.after (opened 8 "\"status\": ")
    (((int32.followedBy (next 8 "\"addr\": ")
      (quoted.followedBy (next 8 "\"desc\": ") quoted)).convert
      (fun t => (⟨t.1, t.2.1, t.2.2⟩ : Response))
      (fun rsp => (rsp._status, rsp._address, rsp._desc))
      (fun _ _ => rfl)).before (closed 4 125))

def syncRequestMembers : Layout BlockSyncRequest :=
  Layout.after (opened 8 "\"address\": ")
    (((quoted.followedBy (next 8 "\"lastblock\": ")
      (quoted.followedBy (next 8 "\"ts\": ") uint64)).convert
      (fun t => (⟨t.1, t.2.1, t.2.2⟩ : BlockSyncRequest))
      (fun req => (req._address, req._lastBlockId, req._timestamp))
      (fun _ _ => rfl)).before (closed 4 125))

def syncResponseMembers : Layout BlockSyncResponse :=
  Layout.after (opened 8 "\"address\": ")
    (((quoted.followedBy (next 8 "\"blocks\": ") (listAt 8 (blockAt 16 12))).convert
      (fun t => (⟨t.1, t.2⟩ : BlockSyncResponse))
      (fun rsp => (rsp._address, rsp._blockList))
      (fun _ _ => rfl)).before (closed 4 125))

def cQuery (req : QueryBalance) : QueryBalance := ⟨cString req._address⟩

def cResponse (rsp : Response) : Response :=
  { rsp with _address := cString rsp._address, _desc := cString rsp._desc }

def cSyncRequest (req : BlockSyncRequest) : BlockSyncRequest :=
  { req with _address := cString req._address, _lastBlockId := cString req._lastBlockId }

def cSyncResponse (rsp : BlockSyncResponse) : BlockSyncResponse :=
  ⟨cString rsp._address, rsp._blockList.map cBlock⟩

def nodeForms : Forms where
  toCereal := cerealJson
  query := codec queryMembers cQuery
  response := codec responseMembers cResponse
  syncRequest := codec syncRequestMembers cSyncRequest
  syncResponse := codec syncResponseMembers cSyncResponse

def QueryClean (req : QueryBalance) : Prop := CString req._address

def ResponseClean (rsp : Response) : Prop := CString rsp._address ∧ CString rsp._desc

def SyncRequestClean (req : BlockSyncRequest) : Prop :=
  CString req._address ∧ CString req._lastBlockId

def SyncResponseClean (rsp : BlockSyncResponse) : Prop :=
  CString rsp._address ∧ ∀ block ∈ rsp._blockList, block.Clean

/-- What a node relies on, for every record. -/
structure Lawful (forms : Forms) : Prop where
  cereal : forms.toCereal.Lawful
  node : forms.node.Lawful NodeClean
  query : forms.query.Lawful QueryClean
  response : forms.response.Lawful ResponseClean
  syncRequest : forms.syncRequest.Lawful SyncRequestClean
  syncResponse : forms.syncResponse.Lawful SyncResponseClean

theorem blockAt_valid (indent close : Nat) (block : Block) : (blockAt indent close).Valid block :=
  ⟨trivial, trivial, trivial, trivial, fun tx _ => transactionAt_valid _ _ tx⟩

theorem cSyncResponse_clean (rsp : BlockSyncResponse) : SyncResponseClean (cSyncResponse rsp) := by
  refine ⟨cString_clean _, fun block member => ?_⟩
  obtain ⟨source, -, rfl⟩ := List.mem_map.mp member
  exact cBlock_clean source

theorem cSyncResponse_of_clean (rsp : BlockSyncResponse) (clean : SyncResponseClean rsp) :
    cSyncResponse rsp = rsp := by
  have list : rsp._blockList.map cBlock = rsp._blockList := by
    calc rsp._blockList.map cBlock = rsp._blockList.map id :=
          List.map_congr_left fun block member => cBlock_of_clean block (clean.2 block member)
      _ = rsp._blockList := List.map_id _
  simp [cSyncResponse, cString_of_clean _ clean.1, list]

theorem nodeForms_lawful : Lawful nodeForms where
  cereal := cerealJson_lawful
  node := cerealJson_nodes
  query := codec_lawful queryMembers cQuery QueryClean (fun _ => trivial)
    (fun _ => cString_clean _) fun req clean => by simp [cQuery, cString_of_clean _ clean]
  response := codec_lawful responseMembers cResponse ResponseClean
    (fun _ => ⟨trivial, trivial, trivial⟩) (fun _ => ⟨cString_clean _, cString_clean _⟩)
    fun rsp clean => by
      simp [cResponse, cString_of_clean _ clean.1, cString_of_clean _ clean.2]
  syncRequest := codec_lawful syncRequestMembers cSyncRequest SyncRequestClean
    (fun _ => ⟨trivial, trivial, trivial⟩) (fun _ => ⟨cString_clean _, cString_clean _⟩)
    fun req clean => by
      simp [cSyncRequest, cString_of_clean _ clean.1, cString_of_clean _ clean.2]
  syncResponse := codec_lawful syncResponseMembers cSyncResponse SyncResponseClean
    (fun rsp => ⟨trivial, fun block _ => blockAt_valid 16 12 block⟩) cSyncResponse_clean
    cSyncResponse_of_clean

/-- What is read, is read whatever object it is read into. -/
structure FillsAll (forms : Forms) : Prop where
  transaction : Fills forms.transaction
  block : Fills forms.block
  syncRequest : Fills forms.syncRequest

theorem nodeForms_fills : FillsAll nodeForms where
  transaction := codec_fills _ _
  block := codec_fills _ _
  syncRequest := codec_fills _ _

/-- Then what is read of a payload does not depend on what was in memory. -/
theorem load_steady {Message : Type} (codec : Codec Message) (fills : Fills codec)
    (old other : Message) (up : Bytes) : load codec old up = load codec other up := by
  simp only [load]
  by_cases loads : (codec.fromString up old).1 = true
  · rw [fills up old other loads]
  · have refused : ¬ (codec.fromString up other).1 = true := fun again =>
      loads (by rw [fills up other old again]; exact again)
    rw [if_neg loads, if_neg refused]

theorem formHandle_steady (forms : Forms) (fills : FillsAll forms) (memory other : Uninitialized) :
    formHandle forms memory = formHandle forms other := by
  have transaction : load forms.transaction (Transaction.fresh memory) =
      load forms.transaction (Transaction.fresh other) :=
    funext fun up => load_steady forms.transaction fills.transaction _ _ up
  have block : load forms.block (Block.fresh memory) = load forms.block (Block.fresh other) :=
    funext fun up => load_steady forms.block fills.block _ _ up
  have syncRequest : load forms.syncRequest (BlockSyncRequest.fresh memory) =
      load forms.syncRequest (BlockSyncRequest.fresh other) :=
    funext fun up => load_steady forms.syncRequest fills.syncRequest _ _ up
  funext uri
  rw [formHandle, formHandle, transaction, block, syncRequest]

example : nodeForms.response.toString ⟨-1, [], ascii "balance = 5"⟩ =
    ascii "\x7b\n    \"value0\": \x7b\n        \"status\": -1,\n        \"addr\": \"\",\n        \"desc\": \"balance = 5\"\n    \x7d\n\x7d" := by
  decide +kernel

end FPayNode.RequestJson
