import RoqBitmex.Gateway.Feed
import RoqBitmex.Gateway.Streams
import RoqBitmex.Protocol.Encoder

/-! # What the websocket sessions send

What a session asks of the exchange is sent as a JSON text that is put together from a template:
the topics to subscribe to, those to leave, and the time after which all orders are to be cancelled.
`commands_read` says that in every run of the gateway the texts read back, one by one, as what the
sessions asked for. -/

namespace RoqBitmex

open Json.Encoder (Plain textMember reads_textMember)
open JsonText (Member Value)

/-- What a session asks of the exchange. -/
inductive Command where
  | subscribe (topics : List String)
  | unsubscribe (topics : List String)
  | cancelAllAfter (milliseconds : ℤ)
  deriving DecidableEq, Repr

namespace Command

/-! ## As they are sent -/

/-- An operation on a topic. -/
def aboutTopic (op topic : String) : String :=
  "\x7b\"op\":\"" ++ op ++
    "\",\"args\":\"" ++ topic ++
    "\"\x7d"

/-- An operation on topics. One topic is written without brackets. -/
def aboutTopics (op : String) : List String → String
  | [topic] => aboutTopic op topic
  | topics =>
      "\x7b\"op\":\"" ++ op ++
        "\",\"args\":[\"" ++ String.intercalate "\",\"" topics ++
        "\"]\x7d"

/-- An operation with a number. -/
def aboutNumber (op : String) (value : ℤ) : String :=
  "\x7b\"op\":\"" ++ op ++
    "\",\"args\":" ++ toString value ++
    "\x7d"

/-! ## As they are read -/

/-- The operation is what `op` says, and `args` is a text, an array of texts or a number. -/
def ofMembers (members : List (String × Value)) : Option Command :=
  match members.lookup "op", members.lookup "args" with
  | some (.string "subscribe"), some (.string topic) => some (.subscribe [topic])
  | some (.string "subscribe"), some (.array topics) => (topics.mapM text?).map .subscribe
  | some (.string "unsubscribe"), some (.string topic) => some (.unsubscribe [topic])
  | some (.string "cancelAllAfter"), some (.number text) =>
      some (.cancelAllAfter (Decimal.read text.toList))
  | _, _ => none
where
  /-- The text a value is. -/
  text? : Value → Option String
    | .string text => some text
    | _ => none

/-- The command a text is. -/
def read (text : String) : Option Command :=
  match JsonText.parse text with
  | some (.object members) => ofMembers members
  | _ => none

/-! ### Reading what is written -/

/-- A member whose value is a decimal. -/
def numberMember (name : String) (value : ℤ) : Member :=
  ⟨name.toList, (toString value).toList, some (.number (toString value))⟩

/-- A number of the gateway reads as itself. -/
theorem reads_numberMember {name : String} (hname : Plain name) (value : ℤ) :
    (numberMember name value).Reads := by
  have hnumber := JsonText.denotes_number (JsonText.isNumber_toString value)
  rw [String.ofList_toList] at hnumber
  exact ⟨hname, hnumber⟩

/-- A command about one topic is the object of its operation and the topic. -/
theorem parse_aboutTopic {op topic : String} (hop : Plain op) (htopic : Plain topic) :
    JsonText.parse (aboutTopic op topic) =
      some (.object [("op", .string op), ("args", .string topic)]) := by
  have hwritten : (aboutTopic op topic).toList =
      '{' :: JsonText.written [textMember "op" op, textMember "args" topic] := by
    simp [aboutTopic, JsonText.written, Member.written, textMember]
  have hreads : ∀ m ∈ [textMember "op" op, textMember "args" topic], m.Reads := by
    refine List.forall_mem_cons.mpr ⟨reads_textMember (by decide) hop, ?_⟩
    exact List.forall_mem_singleton.mpr (reads_textMember (by decide) htopic)
  rw [JsonText.parse_written hreads (List.cons_ne_nil _ _) hwritten]
  simp [JsonText.values, Member.value?, textMember]

/-- A command about a number is the object of its operation and the number. -/
theorem parse_aboutNumber {op : String} (hop : Plain op) (value : ℤ) :
    JsonText.parse (aboutNumber op value) =
      some (.object [("op", .string op), ("args", .number (toString value))]) := by
  have hwritten : (aboutNumber op value).toList =
      '{' :: JsonText.written [textMember "op" op, numberMember "args" value] := by
    simp [aboutNumber, JsonText.written, Member.written, textMember, numberMember]
  have hreads : ∀ m ∈ [textMember "op" op, numberMember "args" value], m.Reads := by
    refine List.forall_mem_cons.mpr ⟨reads_textMember (by decide) hop, ?_⟩
    exact List.forall_mem_singleton.mpr (reads_numberMember (by decide) value)
  rw [JsonText.parse_written hreads (List.cons_ne_nil _ _) hwritten]
  simp [JsonText.values, Member.value?, textMember, numberMember]

/-- Texts joined by what closes one and opens the next are the strings of an array. -/
theorem writtenStrings_join {topics : List String} (h : topics ≠ []) :
    '"' :: ((String.intercalate "\",\"" topics).toList ++ ['"', ']']) =
      JsonText.writtenStrings (topics.map String.toList) := by
  induction topics with
  | nil => exact absurd rfl h
  | cons topic topics ih =>
      cases topics with
      | nil => simp [JsonText.writtenStrings]
      | cons topic' topics =>
          have hrest := ih (List.cons_ne_nil _ _)
          rw [List.map_cons, List.map_cons, JsonText.writtenStrings_cons, ← List.map_cons, ← hrest]
          simp [String.intercalate_cons_cons]

/-- A command about several topics is the object of its operation and the array of the topics. -/
theorem parse_aboutTopics {op : String} (hop : Plain op) {topics : List String}
    (htopics : ∀ topic ∈ topics, Plain topic) (hmany : 2 ≤ topics.length) :
    JsonText.parse (aboutTopics op topics) =
      some (.object [("op", .string op), ("args", .array (topics.map .string))]) := by
  -- the brackets are there from the second topic on
  obtain ⟨topic, topic', rest, rfl⟩ : ∃ topic topic' rest, topics = topic :: topic' :: rest := by
    match topics, hmany with
    | topic :: topic' :: rest, _ => exact ⟨topic, topic', rest, rfl⟩
  have hjoin := writtenStrings_join (List.cons_ne_nil topic (topic' :: rest))
  have hwritten : (aboutTopics op (topic :: topic' :: rest)).toList =
      '{' :: (textMember "op" op).written (',' :: '"' :: ("args".toList ++ '"' :: ':' :: '[' ::
        (JsonText.writtenStrings ((topic :: topic' :: rest).map String.toList) ++ ['}']))) := by
    rw [← hjoin]
    simp [aboutTopics, Member.written, textMember]
  have hplain : ∀ text ∈ (topic :: topic' :: rest).map String.toList,
      text.all JsonText.isPlain = true := List.forall_mem_map.mpr htopics
  have hargs : ("args".toList).all JsonText.isPlain = true := by decide
  have hparse := JsonText.parse_array (reads_textMember (by decide) hop) rfl hargs hplain
    (by simp) hwritten
  rw [hparse]
  simp [textMember]

/-- What is read of an operation and its argument. -/
theorem lookup_members (op args : Value) :
    [("op", op), ("args", args)].lookup "op" = some op ∧
      [("op", op), ("args", args)].lookup "args" = some args := ⟨rfl, rfl⟩

/-- Texts in an array read as themselves. -/
theorem mapM_text? (topics : List String) :
    (topics.map Value.string).mapM ofMembers.text? = some topics := by
  induction topics with
  | nil => rfl
  | cons topic topics ih => simp [ofMembers.text?, ih]

/-- Topics to subscribe to are read back, whether there is one or there are many. -/
theorem read_subscribe {topics : List String} (htopics : ∀ topic ∈ topics, Plain topic)
    (hne : topics ≠ []) : read (aboutTopics "subscribe" topics) = some (.subscribe topics) := by
  have hop : Plain "subscribe" := by decide
  match topics, hne with
  -- one topic is sent as a text and read as a list of one
  | [topic], _ =>
      have hparse := parse_aboutTopic hop (htopics topic (List.mem_singleton_self topic))
      rw [aboutTopics, read, hparse]
      rfl
  | topic :: topic' :: rest, _ =>
      have hparse := parse_aboutTopics hop htopics (by simp)
      have htexts := mapM_text? (topic :: topic' :: rest)
      simp only [read, hparse, ofMembers, lookup_members, htexts, Option.map_some]

/-- The command to unsubscribe from a topic reads as that. -/
theorem read_unsubscribe {topic : String} (htopic : Plain topic) :
    read (aboutTopic "unsubscribe" topic) = some (.unsubscribe [topic]) := by
  have hop : Plain "unsubscribe" := by decide
  rw [read, parse_aboutTopic hop htopic]
  rfl

/-- A time is read back, whatever its sign. -/
theorem read_cancelAllAfter (milliseconds : ℤ) :
    read (aboutNumber "cancelAllAfter" milliseconds) = some (.cancelAllAfter milliseconds) := by
  have hop : Plain "cancelAllAfter" := by decide
  have hread := Decimal.read_toString milliseconds
  simp only [read, parse_aboutNumber hop, ofMembers, lookup_members, hread]

end Command

/-- The topic of a table needs no escape. -/
theorem Json.Table.plain_topic (t : Json.Table) : Plain t.topic := by
  cases t <;> decide

/-- No topic needs an escape. -/
theorem plain_of_mem_topics {topics : List Json.Table} :
    ∀ topic ∈ topics.map Json.Table.topic, Plain topic :=
  List.forall_mem_map.mpr fun t _ => t.plain_topic

/-! ## The sessions -/

namespace MarketData

/-- The text `MarketData::send_subscribe` sends. -/
def sendSubscribe (topics : List String) : String := Command.aboutTopics "subscribe" topics

/-- The text `MarketData::send_unsubscribe` sends. -/
def sendUnsubscribe (topic : String) : String := Command.aboutTopic "unsubscribe" topic

end MarketData

/-- The text an effect of the market data session sends. -/
def Effect.text? : Effect → Option String
  | .subscribe topics => some (MarketData.sendSubscribe (topics.map Json.Table.topic))
  | .unsubscribe topic => some (MarketData.sendUnsubscribe topic.topic)
  | _ => none

/-- What an effect of the market data session asks for. -/
def Effect.command? : Effect → Option Command
  | .subscribe topics => some (.subscribe (topics.map Json.Table.topic))
  | .unsubscribe topic => some (.unsubscribe [topic.topic])
  | _ => none

/-- What the session sends reads as the command it is sent for. -/
theorem Effect.read_text? {g : Gateway} {e : Effect} (h : MarketData.Own g e) :
    e.text?.map Command.read = e.command?.map some := by
  cases e with
  | subscribe topics =>
      have hne : topics.map Json.Table.topic ≠ [] := List.map_eq_nil_iff.not.mpr h
      exact congrArg some (Command.read_subscribe plain_of_mem_topics hne)
  | unsubscribe topic => exact congrArg some (Command.read_unsubscribe topic.plain_topic)
  | _ => rfl

namespace DropCopy

/-- The text `DropCopy::send_subscribe` sends. -/
def sendSubscribe (topics : List String) : String := Command.aboutTopics "subscribe" topics

/-- The text `DropCopy::send_cancel_all_after` sends. -/
def cancelAllAfterText (milliseconds : ℤ) : String :=
  Command.aboutNumber "cancelAllAfter" milliseconds

/-- The text an effect of a drop copy sends. -/
def Effect.text? : Effect → Option String
  | .subscribe topics => some (sendSubscribe (topics.map Json.Table.topic))
  | .cancelAllAfter milliseconds => some (cancelAllAfterText milliseconds)
  | _ => none

/-- What an effect of a drop copy asks for. -/
def Effect.command? : Effect → Option Command
  | .subscribe topics => some (.subscribe (topics.map Json.Table.topic))
  | .cancelAllAfter milliseconds => some (.cancelAllAfter milliseconds)
  | _ => none

/-- What a drop copy sends reads as the command it is sent for. -/
theorem Effect.read_text? {c : Settings} {e : Effect} (h : Own c e) :
    e.text?.map Command.read = e.command?.map some := by
  cases e with
  | subscribe topics =>
      have hne : topics.map Json.Table.topic ≠ [] := List.map_eq_nil_iff.not.mpr h
      exact congrArg some (Command.read_subscribe plain_of_mem_topics hne)
  | cancelAllAfter milliseconds => exact congrArg some (Command.read_cancelAllAfter milliseconds)
  | _ => rfl

end DropCopy

/-! ## The gateway -/

namespace Component

open Controller (Sessions)

variable {M D D' : Type} (u : Surroundings M D D') (sessions : Sessions M) {names : List String}

/-- The text a component sends on its websocket. The requests are sent as calls. -/
def text? : (k : Component names) → k.Output → Option String
  | .orders, _ => none
  | .dropCopy _, e => DropCopy.Effect.text? e
  | .marketData, e => Effect.text? e

/-- What a component asks of the exchange on its websocket. -/
def command? : (k : Component names) → k.Output → Option Command
  | .orders, _ => none
  | .dropCopy _, e => DropCopy.Effect.command? e
  | .marketData, e => Effect.command? e

/-- The texts on the websockets, each with the component that sends it. -/
def texts (os : List ((k : Component names) × k.Output)) : List (Component names × String) :=
  os.filterMap fun o => (text? o.1 o.2).map fun text => (o.1, text)

/-- What is asked for on the websockets, each with the component that asks. -/
def commands (os : List ((k : Component names) × k.Output)) : List (Component names × Command) :=
  os.filterMap fun o => (command? o.1 o.2).map fun command => (o.1, command)

/-- What a component sends in a step reads as what it asks for. -/
theorem read_text?_step (k : Component names) (s : k.State M D D') (i : k.Input) :
    ∀ o ∈ ((machine u sessions k).step s i).2,
      (text? k o).map Command.read = (command? k o).map some := by
  cases k with
  | orders => exact fun o _ => rfl
  | dropCopy name => exact fun e he => DropCopy.Effect.read_text? (DropCopy.own_step s i e he)
  | marketData => exact fun e he => Effect.read_text? (MarketData.own_step s i e he)

/-- **What is sent reads back.** In every run of the gateway, from any state and with the inputs of
its sessions in any order, an exchange that reads the texts on the websockets has what the sessions
ask for, text by text. -/
theorem commands_read (s : (k : Component names) → k.State M D D')
    (is : List ((k : Component names) × k.Input)) :
    (texts ((sessions.gateway u names).outputs s is)).map (fun t => (t.1, Command.read t.2)) =
      (commands ((sessions.gateway u names).outputs s is)).map fun c => (c.1, some c.2) := by
  have hread : ∀ o ∈ (sessions.gateway u names).outputs s is,
      (text? o.1 o.2).map Command.read = (command? o.1 o.2).map some := by
    refine (sessions.gateway u names).outputs_forall (fun _ => True) ?_ trivial is
    rintro s ⟨k, i⟩ -
    exact ⟨trivial, List.forall_mem_map.mpr (read_text?_step u sessions k (s k) i)⟩
  unfold texts commands
  rw [List.map_filterMap, List.map_filterMap]
  refine List.filterMap_congr fun o ho => ?_
  have hpair := congrArg (Option.map (Prod.mk o.1)) (hread o ho)
  simpa only [Option.map_map, Function.comp_def] using hpair

end Component

end RoqBitmex
