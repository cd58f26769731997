import ChatBot.Json.Basic
import ChatBot.Messaging
import ChatBot.Permission
import ChatBot.Text.Blank
import ChatBot.Variables.Basic

/-!
# What a template is rendered in

The context of a rendering: who asked, the values of parameters, the operand for variables, and
what rendering gathers on its way: the by-products of filters and the notices of changes.
-/

set_option autoImplicit false

namespace ChatBot.Template

/-- The context of a rendering. -/
structure RenderContext where
  sender : Sender
  capabilities : Capabilities
  params : NameMap String := ∅
  /-- What references to variables change them by. -/
  operand : Option String := none
  /-- What filters have left for others to look up. -/
  byProducts : NameMap Json := ∅
  /-- Whether the message asked to skip handlers. -/
  skip : Bool := false
  /-- Whether the message asked for quiet. -/
  quiet : Bool := false
  /-- The notices of changes so far. -/
  notifications : List VariableNotification := []

namespace RenderContext

/-- The context of a sender, whose name is the parameter `sender`. -/
def ofSender (sender : Sender) (capabilities : Capabilities) : RenderContext :=
  { sender, capabilities, params := NameMap.ofList [("sender", sender.username)] }

/-- The context with one more parameter. -/
def withParam (c : RenderContext) (name value : String) : RenderContext :=
  { c with params := c.params.insert name value }

/-- The context with an operand; a blank one counts as none. -/
def withOperand (c : RenderContext) (operand : String) : RenderContext :=
  { c with operand := if Text.isBlankText operand then none else some operand }

/-- The context with the flags of a message. -/
def withFlags (c : RenderContext) (skip quiet : Bool) : RenderContext :=
  { c with skip, quiet }

end RenderContext

/-- What a rendering gives. -/
structure RenderOutput where
  text : String
  notifications : List VariableNotification
  deriving DecidableEq

end ChatBot.Template
