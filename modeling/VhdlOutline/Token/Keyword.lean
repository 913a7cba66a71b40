import VhdlOutline.Text.Lower

/-!
# Reserved words

The reserved words of VHDL. Their spelling does not depend on case, so a word is looked up by its
lower-case form.
-/

namespace VhdlOutline

/-- A reserved word. -/
inductive Keyword
  | abs | access | after | alias | all | and | architecture | array | assert | assume
  | assumeGuarantee | attribute_ | begin | block | body | buffer | bus | case | component
  | configuration | constant | context | cover | default | disconnect | downto | else_ | elsif
  | end_ | entity | exit | fairness | file | for_ | force | function | generate | generic | group
  | guarded | if_ | impure | in_ | inertial | inout | is | label | library | linkage | literal
  | loop | map | mod | nand | new | next | nor | not | null | of | on | open_ | or | others | out
  | package | parameter | port | postponed | procedure | process | property | protected_ | pure
  | range | record | register | reject | release | rem | report | restrict | restrictGuarantee
  | return | rol | ror | select | sequence | severity | shared | signal | sla | sll | sra | srl
  | strong | subtype | then_ | to | transport | type | unaffected | units | until | use
  | variable_ | vmode | vprop | vunit | wait | when | while | with_ | xnor | xor
  deriving DecidableEq

namespace Keyword

/-- All reserved words, in alphabetical order. -/
def values : List Keyword := [
  .abs, .access, .after, .alias, .all, .and, .architecture, .array, .assert, .assume,
  .assumeGuarantee, .attribute_, .begin, .block, .body, .buffer, .bus, .case, .component,
  .configuration, .constant, .context, .cover, .default, .disconnect, .downto, .else_, .elsif,
  .end_, .entity, .exit, .fairness, .file, .for_, .force, .function, .generate, .generic, .group,
  .guarded, .if_, .impure, .in_, .inertial, .inout, .is, .label, .library, .linkage, .literal,
  .loop, .map, .mod, .nand, .new, .next, .nor, .not, .null, .of, .on, .open_, .or, .others, .out,
  .package, .parameter, .port, .postponed, .procedure, .process, .property, .protected_, .pure,
  .range, .record, .register, .reject, .release, .rem, .report, .restrict, .restrictGuarantee,
  .return, .rol, .ror, .select, .sequence, .severity, .shared, .signal, .sla, .sll, .sra, .srl,
  .strong, .subtype, .then_, .to, .transport, .type, .unaffected, .units, .until, .use,
  .variable_, .vmode, .vprop, .vunit, .wait, .when, .while, .with_, .xnor, .xor]

/-- The spelling of a reserved word, in lower case. -/
def spelling : Keyword → String
  | .abs => "abs"
  | .access => "access"
  | .after => "after"
  | .alias => "alias"
  | .all => "all"
  | .and => "and"
  | .architecture => "architecture"
  | .array => "array"
  | .assert => "assert"
  | .assume => "assume"
  | .assumeGuarantee => "assume_guarantee"
  | .attribute_ => "attribute"
  | .begin => "begin"
  | .block => "block"
  | .body => "body"
  | .buffer => "buffer"
  | .bus => "bus"
  | .case => "case"
  | .component => "component"
  | .configuration => "configuration"
  | .constant => "constant"
  | .context => "context"
  | .cover => "cover"
  | .default => "default"
  | .disconnect => "disconnect"
  | .downto => "downto"
  | .else_ => "else"
  | .elsif => "elsif"
  | .end_ => "end"
  | .entity => "entity"
  | .exit => "exit"
  | .fairness => "fairness"
  | .file => "file"
  | .for_ => "for"
  | .force => "force"
  | .function => "function"
  | .generate => "generate"
  | .generic => "generic"
  | .group => "group"
  | .guarded => "guarded"
  | .if_ => "if"
  | .impure => "impure"
  | .in_ => "in"
  | .inertial => "inertial"
  | .inout => "inout"
  | .is => "is"
  | .label => "label"
  | .library => "library"
  | .linkage => "linkage"
  | .literal => "literal"
  | .loop => "loop"
  | .map => "map"
  | .mod => "mod"
  | .nand => "nand"
  | .new => "new"
  | .next => "next"
  | .nor => "nor"
  | .not => "not"
  | .null => "null"
  | .of => "of"
  | .on => "on"
  | .open_ => "open"
  | .or => "or"
  | .others => "others"
  | .out => "out"
  | .package => "package"
  | .parameter => "parameter"
  | .port => "port"
  | .postponed => "postponed"
  | .procedure => "procedure"
  | .process => "process"
  | .property => "property"
  | .protected_ => "protected"
  | .pure => "pure"
  | .range => "range"
  | .record => "record"
  | .register => "register"
  | .reject => "reject"
  | .release => "release"
  | .rem => "rem"
  | .report => "report"
  | .restrict => "restrict"
  | .restrictGuarantee => "restrict_guarantee"
  | .return => "return"
  | .rol => "rol"
  | .ror => "ror"
  | .select => "select"
  | .sequence => "sequence"
  | .severity => "severity"
  | .shared => "shared"
  | .signal => "signal"
  | .sla => "sla"
  | .sll => "sll"
  | .sra => "sra"
  | .srl => "srl"
  | .strong => "strong"
  | .subtype => "subtype"
  | .then_ => "then"
  | .to => "to"
  | .transport => "transport"
  | .type => "type"
  | .unaffected => "unaffected"
  | .units => "units"
  | .until => "until"
  | .use => "use"
  | .variable_ => "variable"
  | .vmode => "vmode"
  | .vprop => "vprop"
  | .vunit => "vunit"
  | .wait => "wait"
  | .when => "when"
  | .while => "while"
  | .with_ => "with"
  | .xnor => "xnor"
  | .xor => "xor"

/-- The reserved word in capitals, as it appears in messages. -/
def upper (k : Keyword) : String := k.spelling.toUpper

/-- The name under which a serialized document writes a reserved word: its parts, each with a
capital. -/
def tag (k : Keyword) : String :=
  String.join ((k.spelling.splitOn "_").map String.capitalize)

/-- The reserved word that a text spells. -/
def find? (text : String) : Option Keyword :=
  let spelled := Text.lower text
  values.find? fun k => k.spelling == spelled

/-- Whether the reserved word is a logical, arithmetic or shift operator. -/
def isOperator (k : Keyword) : Bool :=
  k ∈ [.abs, .and, .mod, .nand, .nor, .not, .or, .rem, .rol, .ror, .sla, .sll, .sra, .srl, .xnor,
    .xor]

theorem mem_values (k : Keyword) : k ∈ values := by
  cases k <;> decide

end Keyword

end VhdlOutline
