import OpenExec.Conversations

/-!
# The size of a request

A request is measured by the JSON text of its system prompt, messages and tools.
-/

namespace OpenExec.Agent

open List

variable {request next middle : Request}

def hexDigit (digit : Nat) : Char :=
  Char.ofNat (if digit < 10 then 48 + digit else 87 + digit)

/-- The escapes of `encoding/json` with its escaping of HTML. -/
def escapeChar (c : Char) : List Char :=
  match c.toNat with
  | 34 => "\\\"".toList
  | 92 => "\\\\".toList
  | 8 => "\\b".toList
  | 9 => "\\t".toList
  | 10 => "\\n".toList
  | 12 => "\\f".toList
  | 13 => "\\r".toList
  | 38 => "\\u0026".toList
  | 60 => "\\u003c".toList
  | 62 => "\\u003e".toList
  | 0x2028 => "\\u2028".toList
  | 0x2029 => "\\u2029".toList
  | code => if code < 32 then "\\u00".toList ++
      [hexDigit (code / 16), hexDigit (code % 16)] else [c]

def quote (text : String) : List Char :=
  "\"".toList ++ text.toList.flatMap escapeChar ++ "\"".toList

def field (name : String) (value : List Char) : List Char :=
  quote name ++ ":".toList ++ value

def textField (name text : String) : List (List Char) :=
  if text = "" then [] else [field name (quote text)]

def rawField (name : String) : RawMessage → List (List Char)
  | .absent => []
  | .json compact => [field name compact.toList]
  | .malformed _ => []

def object (fields : List (List Char)) : List Char :=
  "\x7b".toList ++ List.intercalate ",".toList fields ++ "\x7d".toList

def array (items : List (List Char)) : List Char :=
  if items = [] then "null".toList
  else "[".toList ++ List.intercalate ",".toList items ++ "]".toList

def ContentBlock.encode (block : ContentBlock) : List Char :=
  object
    ([field "type" (quote block.type.toString)] ++ textField "text" block.text ++
      textField "image_url" block.imageURL ++ textField "image_data" block.imageData ++
      textField "image_media" block.imageMedia ++ textField "tool_use_id" block.toolUseID ++
      textField "tool_name" block.toolName ++ rawField "tool_input" block.toolInput ++
      textField "tool_result_id" block.toolResultID ++ textField "tool_output" block.toolOutput ++
      textField "tool_error" block.toolError)

def Message.encode (message : Message) : List Char :=
  object
    ([field "role" (quote message.role.toString)] ++
      [field "content" (array (message.content.map ContentBlock.encode))] ++
      match message.metadata with
      | none => []
      | some metadata => rawField "metadata" metadata.json)

def ToolDefinition.encode (tool : ToolDefinition) : List Char :=
  object
    [field "name" (quote tool.name), field "description" (quote tool.description),
      field "input_schema" (match tool.inputSchema with
        | .json compact => compact.toList
        | _ => "null".toList)]

def Request.encode (request : Request) : List Char :=
  object
    [field "system" (quote request.system),
      field "messages" (array (request.messages.map Message.encode)),
      field "tools" (array (request.tools.map ToolDefinition.encode))]

def RawMessage.marshals : RawMessage → Bool
  | .malformed _ => false
  | _ => true

def Message.marshals (message : Message) : Bool :=
  message.content.all (fun block => block.toolInput.marshals) &&
    message.metadata.all fun metadata => metadata.json.marshals

def Request.marshals (request : Request) : Bool :=
  request.messages.all Message.marshals && request.tools.all fun tool => tool.inputSchema.marshals

def weight (weigh : Char → Nat) : List Char → Nat
  | [] => 0
  | c :: text => weigh c + weight weigh text

def asciiWeight (c : Char) : Nat :=
  if c.toNat < 128 then 1 else 0

def otherWeight (c : Char) : Nat :=
  if c.toNat < 128 then 0 else c.utf8Size

structure Size where
  tokens : Int
  bytes : Int
  deriving DecidableEq

def estimateRequest (request : Request) : Size :=
  if request.marshals then
    let ascii := weight asciiWeight request.encode
    let other := weight otherWeight request.encode
    { tokens :=
        ((ascii * 5 + 11) / 12 + other + 256 + (request.messages.length + request.tools.length) * 32
          : Nat)
      bytes := (ascii + other : Nat) }
  else ⟨(2 ^ 40 : Nat), (2 ^ 40 : Nat)⟩

section

variable {weigh : Char → Nat}

@[simp]
theorem weight_append (first second : List Char) :
    weight weigh (first ++ second) = weight weigh first + weight weigh second := by
  induction first with
  | nil => simp [weight]
  | cons c first ih =>
    simp only [cons_append, weight, ih]
    omega

def weights (weigh : Char → Nat) : List (List Char) → Nat
  | [] => 0
  | item :: items => weight weigh item + weights weigh items

theorem weights_append (first second : List (List Char)) :
    weights weigh (first ++ second) = weights weigh first + weights weigh second := by
  induction first with
  | nil => simp [weights]
  | cons item first ih =>
    simp only [cons_append, weights, ih]
    omega

theorem weight_intercalate (separator : List Char) (item : List Char) (items : List (List Char)) :
    weight weigh (List.intercalate separator (item :: items)) =
      weights weigh (item :: items) + items.length * weight weigh separator := by
  induction items generalizing item with
  | nil => simp [weights]
  | cons next items ih =>
    rw [intercalate_cons_cons, weight_append, weight_append, ih next]
    simp only [weights, length_cons, Nat.add_mul]
    omega

theorem weight_array (items : List (List Char)) : weight weigh (array items) =
      if items = [] then weight weigh "null".toList
      else weight weigh "[".toList + weight weigh "]".toList + weights weigh items +
        (items.length - 1) * weight weigh ",".toList := by
  unfold array
  cases items with
  | nil => simp
  | cons item items =>
    rw [if_neg (by simp), if_neg (by simp), weight_append, weight_append, weight_intercalate]
    simp only [length_cons, Nat.add_sub_cancel]
    omega

theorem weight_array_insert {before after : List (List Char)} (item : List Char)
    (others : before ++ after ≠ []) : weight weigh (array (before ++ item :: after)) =
      weight weigh (array (before ++ after)) + (weight weigh item + weight weigh ",".toList) := by
  rw [weight_array, weight_array, if_neg (by simp), if_neg others, weights_append, weights_append,
    weights]
  have count : (before ++ item :: after).length - 1 = (before ++ after).length - 1 + 1 := by
    have positive := length_pos_iff.mpr others
    simp only [length_append, length_cons] at positive ⊢
    omega
  rw [count, Nat.add_mul]
  omega

/-- The text of a request around its three parts. -/
def bodyFrame : List Char :=
  object [field "system" [], field "messages" [], field "tools" []]

theorem weight_encode (request : Request) :
    weight weigh request.encode =
      weight weigh bodyFrame + weight weigh (quote request.system) +
        weight weigh (array (request.messages.map Message.encode)) +
        weight weigh (array (request.tools.map ToolDefinition.encode)) := by
  simp only [Request.encode, bodyFrame, object, field, weight_append, weight_intercalate, weights,
    length_cons, length_nil, append_nil]
  omega

end

def Request.ascii (request : Request) : Nat := weight asciiWeight request.encode

def Request.other (request : Request) : Nat := weight otherWeight request.encode

def Request.items (request : Request) : Nat := request.messages.length + request.tools.length

/-- What is added to a request: ASCII characters, bytes of other characters, and messages
or tools. -/
structure Addition where
  ascii : Nat
  other : Nat
  items : Nat

instance : Add Addition where
  add first second :=
    ⟨first.ascii + second.ascii, first.other + second.other, first.items + second.items⟩

def Addition.cost (addition : Addition) : Size where
  tokens := ((addition.ascii * 5 + 11) / 12 + addition.other + addition.items * 32 : Nat)
  bytes := (addition.ascii + addition.other : Nat)

def itemAddition (item : List Char) : Addition where
  ascii := weight asciiWeight item + 1
  other := weight otherWeight item
  items := 1

def textAddition (text : String) : Addition where
  ascii := weight asciiWeight (text.toList.flatMap escapeChar)
  other := weight otherWeight (text.toList.flatMap escapeChar)
  items := 0

structure Request.GrowsBy (request next : Request) (addition : Addition) : Prop where
  marshals : next.marshals = request.marshals
  ascii : next.ascii ≤ request.ascii + addition.ascii
  other : next.other ≤ request.other + addition.other
  items : next.items ≤ request.items + addition.items

theorem estimate_of_marshals (marshals : request.marshals) : estimateRequest request =
      ⟨((request.ascii * 5 + 11) / 12 + request.other + 256 + request.items * 32 : Nat),
        (request.ascii + request.other : Nat)⟩ := by
  rw [estimateRequest, if_pos marshals]
  rfl

theorem estimate_of_not_marshals (marshals : request.marshals = false) :
    estimateRequest request = ⟨(2 ^ 40 : Nat), (2 ^ 40 : Nat)⟩ := by
  rw [estimateRequest, if_neg (by simp [marshals])]

theorem Request.GrowsBy.estimate {addition : Addition} (grows : request.GrowsBy next addition) :
    (estimateRequest next).tokens ≤ (estimateRequest request).tokens + addition.cost.tokens ∧
      (estimateRequest next).bytes ≤ (estimateRequest request).bytes + addition.cost.bytes := by
  obtain ⟨marshals, ascii, other, items⟩ := grows
  cases encodes : request.marshals with
  | true =>
    rw [estimate_of_marshals encodes, estimate_of_marshals (marshals.trans encodes)]
    simp only [Addition.cost]
    omega
  | false =>
    rw [estimate_of_not_marshals encodes, estimate_of_not_marshals (marshals.trans encodes)]
    simp only [Addition.cost]
    omega

theorem Request.GrowsBy.refl (request : Request) (addition : Addition) :
    request.GrowsBy request addition :=
  ⟨rfl, Nat.le_add_right _ _, Nat.le_add_right _ _, Nat.le_add_right _ _⟩

theorem Request.GrowsBy.trans {first second : Addition} (grows : request.GrowsBy middle first)
    (again : middle.GrowsBy next second) :
    request.GrowsBy next (first + second) where
  marshals := again.marshals.trans grows.marshals
  ascii := by
    have := grows.ascii
    have := again.ascii
    change _ ≤ _ + (first.ascii + second.ascii)
    omega
  other := by
    have := grows.other
    have := again.other
    change _ ≤ _ + (first.other + second.other)
    omega
  items := by
    have := grows.items
    have := again.items
    change _ ≤ _ + (first.items + second.items)
    omega

theorem array_insert_le {weigh : Char → Nat} (before after : List (List Char)) (item : List Char)
    (brackets : weight weigh "[".toList + weight weigh "]".toList ≤
      weight weigh "null".toList + weight weigh ",".toList) :
    weight weigh (array (before ++ item :: after)) ≤
      weight weigh (array (before ++ after)) + (weight weigh item + weight weigh ",".toList) := by
  by_cases others : before ++ after = []
  · obtain ⟨rfl, rfl⟩ := append_eq_nil_iff.mp others
    simp only [nil_append, weight_array, reduceCtorEq, if_true, if_false, weights,
      length_cons, length_nil]
    omega
  · exact (weight_array_insert item others).le

theorem growsBy_item {before after : List (List Char)} {item : List Char}
    (marshals : next.marshals = request.marshals) (items : next.items = request.items + 1)
    (differ : ∀ weigh : Char → Nat,
      weight weigh next.encode + weight weigh (array (before ++ after)) =
        weight weigh request.encode + weight weigh (array (before ++ item :: after))) :
    request.GrowsBy next (itemAddition item) := by
  have ascii := @array_insert_le asciiWeight before after item (by decide +kernel)
  have other := @array_insert_le otherWeight before after item (by decide +kernel)
  have asciiComma : weight asciiWeight ",".toList = 1 := by decide +kernel
  have otherComma : weight otherWeight ",".toList = 0 := by decide +kernel
  have asciiDiffer := differ asciiWeight
  have otherDiffer := differ otherWeight
  constructor
  · exact marshals
  · simp only [Request.ascii, itemAddition]
    omega
  · simp only [Request.other, itemAddition]
    omega
  · exact items.le

theorem growsBy_message (request : Request) {message : Message} (marshals : message.marshals) :
    request.GrowsBy { request with messages := request.messages ++ [message] }
      (itemAddition message.encode) := by
  refine @growsBy_item _ _ (request.messages.map Message.encode) [] _ ?_ ?_ fun weigh => ?_
  · simp [Request.marshals, all_append, marshals]
  · simp only [Request.items, length_append, length_singleton]
    omega
  · simp only [weight_encode, map_append, map_cons, map_nil, append_nil]
    omega

theorem growsBy_tool (request : Request) {before after : List ToolDefinition}
    {tool : ToolDefinition} (isTools : request.tools = before ++ after)
    (marshals : tool.inputSchema.marshals) :
    request.GrowsBy { request with tools := before ++ tool :: after }
      (itemAddition tool.encode) := by
  refine @growsBy_item _ _ (before.map ToolDefinition.encode) (after.map ToolDefinition.encode) _
    ?_ ?_ fun weigh => ?_
  · simp [Request.marshals, isTools, all_append, all_cons, marshals]
  · simp only [Request.items, isTools, length_append, length_cons]
    omega
  · simp only [weight_encode, isTools, map_append, map_cons]
    omega

theorem weight_flatMap_sublist {weigh : Char → Nat} {first second : List Char}
    (change : Char → List Char) (sublist : first.Sublist second) :
    weight weigh (first.flatMap change) ≤ weight weigh (second.flatMap change) := by
  induction sublist with
  | slnil => exact Nat.le_refl _
  | cons c _ ih =>
    rw [flatMap_cons, weight_append]
    omega
  | cons_cons c _ ih =>
    rw [flatMap_cons, flatMap_cons, weight_append, weight_append]
    omega

theorem growsBy_system (request : Request) {system text : String}
    (sublist : system.toList.Sublist (request.system.toList ++ text.toList)) :
    request.GrowsBy { request with system := system } (textAddition text) := by
  have larger : ∀ weigh : Char → Nat, weight weigh (quote system) ≤
      weight weigh (quote request.system) +
        weight weigh (text.toList.flatMap escapeChar) := by
    intro weigh
    have shorter := @weight_flatMap_sublist weigh _ _ escapeChar sublist
    simp only [flatMap_append, weight_append] at shorter
    simp only [quote, weight_append]
    omega
  constructor
  · rfl
  · have ascii := larger asciiWeight
    simp only [Request.ascii, weight_encode, textAddition]
    omega
  · have other := larger otherWeight
    simp only [Request.other, weight_encode, textAddition]
    omega
  · exact Nat.le_refl _

/-- A request with more messages or tools than another one, and no fewer characters. -/
structure Request.Larger (request next : Request) : Prop where
  marshals : request.marshals = true ∧ next.marshals = true
  ascii : request.ascii ≤ next.ascii
  other : request.other ≤ next.other
  items : request.items < next.items

theorem Request.Larger.tokens (larger : request.Larger next) :
    (estimateRequest request).tokens < (estimateRequest next).tokens := by
  obtain ⟨⟨marshals, nextMarshals⟩, ascii, other, items⟩ := larger
  rw [estimate_of_marshals marshals, estimate_of_marshals nextMarshals]
  simp only
  omega

theorem Request.Larger.trans (first : request.Larger middle) (second : middle.Larger next) :
    request.Larger next :=
  ⟨⟨first.marshals.1, second.marshals.2⟩, Nat.le_trans first.ascii second.ascii,
    Nat.le_trans first.other second.other, Nat.lt_trans first.items second.items⟩

theorem weight_array_append_le {α : Type} {weigh : Char → Nat} (encode : α → List Char)
    {items : List α} (others : items ≠ []) (item : α) :
    weight weigh (array (items.map encode)) ≤
      weight weigh (array ((items ++ [item]).map encode)) := by
  have inserted := @weight_array_insert weigh (items.map encode) [] (encode item)
    (by simpa using others)
  rw [append_nil] at inserted
  rw [map_append, map_cons, map_nil, inserted]
  omega

theorem larger_message {request : Request} {message : Message} (marshals : request.marshals)
    (alsoMarshals : message.marshals) (others : request.messages ≠ []) :
    request.Larger { request with messages := request.messages ++ [message] } := by
  have grown (weigh : Char → Nat) : weight weigh request.encode ≤
      weight weigh (Request.encode { request with messages := request.messages ++ [message] }) := by
    have messages := @weight_array_append_le _ weigh Message.encode _ others message
    simp only [weight_encode]
    omega
  refine ⟨⟨marshals, ?_⟩, grown asciiWeight, grown otherWeight, by simp [Request.items]⟩
  simp only [Request.marshals, Bool.and_eq_true] at marshals ⊢
  exact ⟨by simp [all_append, marshals.1, alsoMarshals], marshals.2⟩

theorem larger_tool {request : Request} {tool : ToolDefinition} (marshals : request.marshals)
    (alsoMarshals : tool.inputSchema.marshals) (others : request.tools ≠ []) :
    request.Larger { request with tools := request.tools ++ [tool] } := by
  have grown (weigh : Char → Nat) : weight weigh request.encode ≤
      weight weigh (Request.encode { request with tools := request.tools ++ [tool] }) := by
    have tools := @weight_array_append_le _ weigh ToolDefinition.encode _ others tool
    simp only [weight_encode]
    omega
  refine ⟨⟨marshals, ?_⟩, grown asciiWeight, grown otherWeight, by simp [Request.items]⟩
  simp only [Request.marshals, Bool.and_eq_true] at marshals ⊢
  exact ⟨marshals.1, by simp [all_append, marshals.2, alsoMarshals]⟩

end OpenExec.Agent
