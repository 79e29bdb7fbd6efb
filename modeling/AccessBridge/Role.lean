/-!
# Roles of nodes

What a node is to a user. A role has a name in the toolkit's (larger) vocabulary and a widget
class in the host's; it also decides three defaults of a node. `ofToolkitName_toolkitName` says
that a role survives the trip through the toolkit's vocabulary.
-/

namespace AccessBridge

/-- The roles that a host can tell apart. -/
inductive Role where
  | unknown | window | dialog | button | checkBox | switch | radioButton | textInput | textArea
  | label | link | image | progressBar | slider | spinBox | comboBox | list | listItem
  | scrollArea | tabList | tab | menu | menuItem | group | alert | container
deriving DecidableEq, Repr, Inhabited

namespace Role

/-- The role's name in the toolkit's vocabulary. -/
def toolkitName : Role → String
  | unknown => "Unknown"
  | window => "Window"
  | dialog => "Dialog"
  | button => "Button"
  | checkBox => "CheckBox"
  | switch => "Switch"
  | radioButton => "RadioButton"
  | textInput => "TextInput"
  | textArea => "MultilineTextInput"
  | label => "Label"
  | link => "Link"
  | image => "Image"
  | progressBar => "ProgressIndicator"
  | slider => "Slider"
  | spinBox => "SpinButton"
  | comboBox => "ComboBox"
  | list => "List"
  | listItem => "ListItem"
  | scrollArea => "ScrollView"
  | tabList => "TabList"
  | tab => "Tab"
  | menu => "Menu"
  | menuItem => "MenuItem"
  | group => "Group"
  | alert => "Alert"
  | container => "GenericContainer"

/-- The role behind a name of the toolkit's vocabulary; a name without a counterpart is
    `unknown`. -/
def ofToolkitName : String → Role
  | "Window" => window
  | "Dialog" => dialog
  | "Button" => button
  | "CheckBox" => checkBox
  | "Switch" => switch
  | "RadioButton" => radioButton
  | "TextInput" => textInput
  | "MultilineTextInput" => textArea
  | "Label" => label
  | "Link" => link
  | "Image" => image
  | "ProgressIndicator" => progressBar
  | "Slider" => slider
  | "SpinButton" => spinBox
  | "ComboBox" => comboBox
  | "List" => list
  | "ListItem" => listItem
  | "ScrollView" => scrollArea
  | "TabList" => tabList
  | "Tab" => tab
  | "Menu" => menu
  | "MenuItem" => menuItem
  | "Group" => group
  | "Alert" => alert
  | "GenericContainer" => container
  | _ => unknown

theorem ofToolkitName_toolkitName (r : Role) : ofToolkitName r.toolkitName = r := by
  cases r <;> rfl

/-- The widget class reported to the host; screen readers choose their announcement by it. -/
def widgetClass : Role → String
  | button => "android.widget.Button"
  | checkBox => "android.widget.CheckBox"
  | switch => "android.widget.Switch"
  | radioButton => "android.widget.RadioButton"
  | textInput | textArea => "android.widget.EditText"
  | label | link => "android.widget.TextView"
  | image => "android.widget.ImageView"
  | progressBar => "android.widget.ProgressBar"
  | slider => "android.widget.SeekBar"
  | spinBox => "android.widget.NumberPicker"
  | comboBox => "android.widget.Spinner"
  | list => "android.widget.ListView"
  | scrollArea => "android.widget.ScrollView"
  | tabList => "android.widget.TabWidget"
  | dialog | alert => "android.app.Dialog"
  | unknown | window | listItem | tab | menu | menuItem | group | container => "android.view.View"

/-- Whether a node of this role takes a click without advertising one. -/
def isClickable : Role → Bool
  | button | checkBox | switch | radioButton | link | comboBox | tab | menuItem => true
  | _ => false

/-- Whether a node of this role carries a checked state. -/
def isCheckable : Role → Bool
  | checkBox | switch | radioButton => true
  | _ => false

/-- Whether a node of this role holds editable text. -/
def isTextInput : Role → Bool
  | textInput | textArea => true
  | _ => false

end Role

end AccessBridge
