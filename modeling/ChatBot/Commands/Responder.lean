import ChatBot.Dispatch.Registry
import ChatBot.Locale
import ChatBot.Template.Evaluator

/-!
# Answering custom commands

A handler that runs for every line. When the line starts with an enabled custom command, the
responses of that command are rendered one after the other, as far as the sender's standing
admits them, and sent as replies, each followed by the notices of the changes it has made.
-/

set_option autoImplicit false

namespace ChatBot.Commands

open ChatBot.Template

variable {ε : Type}

/-- The reply to a command that has no responses. -/
def withoutResponse (t : Locale.Translator) (i : Invocation) (command : String) :
    OutboundMessage :=
  i.reply (t.localize Locale.noResponse (NameMap.ofList [
    ("sender", .str i.message.sender.username), ("command", .str command)]))

/-- Whom a command is aimed at: the first word of its parameter without the marks of a mention,
or else the sender. -/
def target (sender : Sender) (param : String) : String :=
  match Text.words param with
  | [] => sender.username
  | word :: _ =>
    let name := word.toList.dropWhile (· == '@')
    if name.isEmpty then sender.username else String.ofList name

/-- The context in which a response is rendered. -/
def responseContext (i : Invocation) (param : String) : RenderContext :=
  ((((RenderContext.ofSender i.message.sender i.capabilities).withParam "param" param).withParam
    "touser" (target i.message.sender param)).withOperand param).withFlags
    i.message.skip i.message.quiet

/-- The message that a notice is sent as. -/
def noticeMessage (sender : Sender) (n : VariableNotification) : OutboundMessage :=
  (({ text := n.text, sender } : OutboundMessage).withAttr "kind" "notification").withAttr
    "variable" n.variableName

/-- The messages that a rendered response comes to. -/
def messages (i : Invocation) (out : RenderOutput) : List OutboundMessage :=
  (if Text.isBlankText out.text then [] else [i.reply out.text]) ++
    out.notifications.map (noticeMessage i.message.sender)

/-- Renders one response in a fresh context. -/
def renderResponse (e : Engine) (i : Invocation) (param : String) (r : CustomResponse) :
    Activity ε (List OutboundMessage) := do
  let (out, _) ← (renderText e r.text).run (responseContext i param)
  return messages i out

/-- Renders responses in order, up to the first permitted one that ends the run. -/
def respond (e : Engine) (owners : Owners) (i : Invocation) (param : String) :
    List CustomResponse → Activity ε (List OutboundMessage)
  | [] => return []
  | r :: rest => do
    if ← checkPermission owners i.cache i.message.sender.id r.permission then
      let own ← renderResponse e i param r
      if r.stopIfExecuted then return own
      else return own ++ (← respond e owners i param rest)
    else respond e owners i param rest

/-- The handler of custom commands. -/
def responder (e : Engine) (owners : Owners) (t : Locale.Translator) : Handler ε := fun i => do
  match ← StateT.lift (Stepwise.read fun w => w.commands.find? i.param) with
  | none => return .allowed []
  | some (c, param) =>
    if c.responses.isEmpty then return .allowed [withoutResponse t i c.command]
    else return .allowed (← StateT.lift (respond e owners i param c.responses))

/-- The registration of the handler of custom commands. -/
def responderRegistration (e : Engine) (owners : Owners) (t : Locale.Translator) :
    Registration ε where
  name := "customcommands"
  pattern := .any
  handler := responder e owners t

end ChatBot.Commands
