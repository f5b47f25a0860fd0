import Joinery.Datum
import Joinery.Number.Literal

/-!
Everything that can be refused, by cause, with the one wording of each cause.
-/
namespace Joinery

inductive Fault where
  | wrongType
  | noSuchPart
  | integerTooLarge
  | sumTooLarge
  | notTypedNumber (text : String)
  | textAsNumber
  | unknownChoice (field : String) (given : Datum) (choices : List String)
  | notNonNegative (field : String) (given : Datum)
  | notWhole (field : String) (least : Int) (given : Datum)
  | crossedBounds (name : String) (least most : Numeral)
  | notIdentifier (name : String)
  | repeatedVariable (name : String)
  | rejectedFormula (formula : String) (issues : List String)
  | noTemplateCode (name : String)
  | unknownTemplate (code : Datum)
  | unknownComplexity (label : Datum) (choices : List String)
  | noOperation (component operation : String)
  | noFeature (component feature : String)
  | noComponent (product component : String)
  | repeatedComponent (product component : String)
  | emptyRateName (kind : String)
  | badRate (kind name : String) (given : Datum)
  | notAnObject (kind : String) (given : Datum)
  | missingField (kind key : String)
  | notADate (field : String) (given : Datum)
  | badRecordVersion (version product : Datum)
  | badComponentRecord (component : Datum) (cause : Fault)
  | badProductRecord (product : Datum) (cause : Fault)
  | malformedProduct
  | tooManyDigits (count : Nat)
  | tooLongToShow
  | nestedTooDeep
  | inProductFile (file : String) (cause : Fault)
  | unreadableProduct (path : String)
  | nullInPath
  | isFolder (path : String)
  | unknownHome
  | badEncoding
  | missingResource (path : String)
  | negativeParameter (name : String) (given : Numeral)
  | malformedSettings (file : String)
  | settingsNotAnObject (file : String)
  | badOverride (cause : Fault)
  | unknownSettingsVersion (version : Datum)
  | noPricingDefaults
  | noSettingsSection (name : String)
  | badParameters (cause : Fault)
  | ratesNotAnObject
  | badRates (cause : Fault)
  | noRateTable (path : String)
  | malformedRateTable (file : String)
  | missingColumns (file : String) (columns : List String)

inductive Fault.Kind where
  | value
  | formula
  | key
  | settings
  | type
  | part
  | overflow
  | encoding
  | resource
  | depth
  | folder
  | home
  deriving DecidableEq, Repr

def Fault.Kind.name : Fault.Kind → String
  | .value => "ValueError"
  | .formula => "FormulaError"
  | .key => "KeyError"
  | .settings => "ConfigError"
  | .type => "TypeError"
  | .part => "AttributeError"
  | .overflow => "OverflowError"
  | .encoding => "UnicodeDecodeError"
  | .resource => "FileNotFoundError"
  | .depth => "RecursionError"
  | .folder => "IsADirectoryError"
  | .home => "RuntimeError"

namespace Fault

def listed (items : List String) : String := ", ".intercalate items

def kind : Fault → Kind
  | wrongType => .type
  | noSuchPart => .part
  | integerTooLarge | sumTooLarge => .overflow
  | rejectedFormula .. => .formula
  | unknownTemplate _ | noOperation .. | noFeature .. | noComponent .. => .key
  | badEncoding => .encoding
  | missingResource _ => .resource
  | nestedTooDeep => .depth
  | isFolder _ => .folder
  | unknownHome => .home
  | negativeParameter .. | malformedSettings _ | settingsNotAnObject _
  | badOverride _ | unknownSettingsVersion _ | noPricingDefaults | noSettingsSection _
  | badParameters _ | ratesNotAnObject | badRates _ | noRateTable _ | malformedRateTable _
  | missingColumns .. => .settings
  | _ => .value

/-- Faults in a value itself, which a reader of records reports as a fault of the record. -/
def isOfValue (f : Fault) : Bool := f.kind = .value || f.kind = .formula || f.kind = .encoding

def message : Fault → String
  | wrongType => "<TypeError>"
  | noSuchPart => "<AttributeError>"
  | integerTooLarge => "int too large to convert to float"
  | sumTooLarge => "intermediate overflow in fsum"
  | notTypedNumber text => s!"could not convert string to float: {Text.quoted text}"
  | textAsNumber => "Unknown format code 'g' for object of type 'str'"
  | unknownChoice field given choices =>
    s!"Unknown {field} {given.shown}; expected one of {listed choices}"
  | notNonNegative field given => s!"{field} must be a non-negative number, got {given.shown}"
  | notWhole field least given => s!"{field} must be an integer >= {least}, got {given.shown}"
  | crossedBounds name least most =>
    s!"Variable {Text.quoted name} has min_value {least.shown} above max_value {most.shown}"
  | notIdentifier name => s!"Variable name {Text.quoted name} is not a valid identifier"
  | repeatedVariable name => s!"Duplicate variable {Text.quoted name} in catalog"
  | rejectedFormula formula issues =>
    let joined := "; ".intercalate issues
    let detail := if joined = "" then "invalid formula" else joined
    s!"Invalid formula {Text.quoted formula}: {detail}"
  | noTemplateCode name => s!"Process template {Text.quoted name} needs a code"
  | unknownTemplate code => s!"No process template with code {code.shown}"
  | unknownComplexity label choices =>
    s!"Unknown complexity {label.shown}; expected one of {listed choices}"
  | noOperation component operation =>
    s!"Component {Text.quoted component} has no process {Text.quoted operation}"
  | noFeature component feature =>
    s!"Component {Text.quoted component} has no feature {Text.quoted feature}"
  | noComponent product component =>
    s!"Product {Text.quoted product} has no component {Text.quoted component}"
  | repeatedComponent product component =>
    s!"Product {Text.quoted product} already contains component {Text.quoted component}"
  | emptyRateName kind => s!"Empty {kind} name in rate overrides"
  | badRate kind name given =>
    s!"{kind} rate for {Text.quoted name} must be a non-negative number, got {given.shown}"
  | notAnObject kind given => s!"{kind} record must be an object, got {given.typeName}"
  | missingField kind key => s!"{kind} record is missing {Text.quoted key}"
  | notADate field given => s!"{field} is not an ISO-8601 date: {given.shown}"
  | badRecordVersion version product =>
    s!"Unsupported product record version {version.shown} for {product.shown}"
  | badComponentRecord component cause =>
    s!"Invalid component record {component.shown}: {cause.message}"
  | badProductRecord product cause => s!"Invalid product record {product.shown}: {cause.message}"
  | malformedProduct => "Malformed product JSON: <parser>"
  | tooManyDigits count =>
    s!"Exceeds the limit ({Number.mostDigits} digits) for integer string conversion: " ++
      s!"value has {count} digits; use sys.set_int_max_str_digits() to increase the limit"
  | tooLongToShow =>
    s!"Exceeds the limit ({Number.mostDigits} digits) for integer string conversion; " ++
      "use sys.set_int_max_str_digits() to increase the limit"
  | nestedTooDeep => "maximum recursion depth exceeded"
  | inProductFile file cause => s!"{file}: {cause.message}"
  | unreadableProduct path => s!"Cannot read product file {path}: <os>"
  | nullInPath => "embedded null byte"
  | isFolder path => s!"Is a directory: {Text.quoted path}"
  | unknownHome => "Could not determine home directory."
  | badEncoding => "<utf8>"
  | missingResource path => s!"Resource not found: {path}"
  | negativeParameter name given => s!"{name} must be non-negative, got {given.shown}"
  | malformedSettings file => s!"Malformed JSON in {file}: <parser>"
  | settingsNotAnObject file => s!"Configuration root must be an object in {file}"
  | badOverride cause => s!"Failed to load override settings: {cause.message}"
  | unknownSettingsVersion version =>
    s!"Unsupported version requested: {version.shown}; expected 1"
  | noPricingDefaults => "'pricing_defaults' section missing from app settings"
  | noSettingsSection name => s!"Missing configuration section in app settings: {name}"
  | badParameters cause => s!"Invalid estimation parameters: {cause.message}"
  | ratesNotAnObject => "'rate_overrides' must be an object"
  | badRates cause => s!"Invalid rate overrides: {cause.message}"
  | noRateTable path => s!"Rate table not found: {path}"
  | malformedRateTable file => s!"Malformed rate table {file}: <parser>"
  | missingColumns file columns =>
    s!"Rate table {file} is missing columns: {listed columns}"

def shownValues : Fault → List Datum
  | unknownChoice _ given _ | notNonNegative _ given | notWhole _ _ given | unknownTemplate given
  | unknownComplexity given _ | badRate _ _ given | notADate _ given
  | badComponentRecord given _ | badProductRecord given _ | unknownSettingsVersion given => [given]
  | badRecordVersion version product => [version, product]
  | negativeParameter _ given => [.number given]
  | crossedBounds _ least most => [.number least, .number most]
  | _ => []

end Fault

abbrev Outcome := Except Fault

namespace Datum

def mostShown : Nat := 990

/-- What first stands in the way of showing a value: a part that lies too deep in it, or a whole number
of too many digits. -/
def unshownWithin : Nat → Datum → Option Fault
  | 0, _ => some .nestedTooDeep
  | _ + 1, int n => if n.natAbs < 10 ^ Number.mostDigits then none else some .tooLongToShow
  | levels + 1, list items => items.findSome? (unshownWithin levels)
  | levels + 1, object fields => fields.findSome? fun field => unshownWithin levels field.2
  | _ + 1, _ => none

def unshown? (d : Datum) : Option Fault := unshownWithin mostShown d

def asText : Datum → Outcome String
  | text s => .ok s
  | d =>
    match d.unshown? with
    | none => .ok d.plain
    | some f => .error f

/-- The text of a value, where one that stands for nothing has none. -/
def givenText (d : Datum) : Outcome String := if d.isGiven then d.asText else .ok ""

end Datum

/-- What is raised where a message is to show values that cannot be shown. -/
def Fault.raised (f : Fault) : Fault := (f.shownValues.findSome? Datum.unshown?).getD f

abbrev refuse (f : Fault) : Outcome α := .error f.raised

end Joinery
