import SourceFilter.Errno
import SourceFilter.Failure
import SourceFilter.Kernel.Map
import SourceFilter.Kernel.ObjectFormat
import SourceFilter.Text.Split

/-!
# Object files

The filter program comes as an object file. The names of its sections say how their contents are
read: as declarations of maps, as a program of some kind, as functions, as plain data, or as a part
of the file that has a form of its own. What the symbols in a section name are the maps, programs
and functions in it.
-/

namespace SourceFilter

/-- The name that the filter program must have. -/
def filterProgram : String := "ipfilter"

/-- What a program is for. -/
inductive ProgramKind where
  /-- Packets at an interface. -/
  | packetFilter
  /-- Packets that a map sent to a processor or to a device. -/
  | redirected
  /-- Anything else. -/
  | other
  deriving DecidableEq, Repr

namespace ProgramKind

/-- Names of sections of packet programs, up to the first slash. -/
def packetNames : List String := ["xdp", "xdp.frags"]

/-- What may follow the first slash for a packet program: the kind of map that sends it packets. -/
def packetDetails : List String := ["cpumap", "devmap"]

/-- Names of sections of other programs, up to the first slash, after which anything may follow. -/
def plainNames : List String :=
  ["kprobe", "kretprobe", "uprobe", "uprobe.s", "uretprobe", "uretprobe.s", "tp_btf", "tracepoint",
    "tp", "socket", "sk_msg", "sockops", "classifier", "lirc_mode2", "perf_event", "raw_tp",
    "raw_tracepoint", "lsm", "lsm.s", "fentry", "fentry.s", "fexit", "fexit.s", "freplace",
    "sk_lookup"]

/-- Names of sections of other programs, up to the first slash, with what must follow it. -/
def detailedNames : List (String × List String) :=
  [("sk_skb", ["stream_parser", "stream_verdict"]),
    ("cgroup_skb", ["ingress", "egress"]),
    ("cgroup",
      ["skb", "dev", "sysctl", "getsockopt", "setsockopt", "sock", "sock_create", "sock_release",
        "post_bind4", "post_bind6", "bind4", "bind6", "connect4", "connect6", "getpeername4",
        "getpeername6", "getsockname4", "getsockname6", "sendmsg4", "sendmsg6", "recvmsg4",
        "recvmsg6"])]

/-- The kind of program that a section of that name holds. What follows a second slash says
nothing. -/
def ofName? (name : String) : Option ProgramKind :=
  match (Text.split '/' name.toList).map String.ofList with
  | [] => none
  | [kind] =>
    if packetNames.contains kind then some .packetFilter
    else if plainNames.contains kind then some .other
    else none
  | kind :: detail :: _ =>
    if packetNames.contains kind then
      if packetDetails.contains detail then some .redirected else none
    else if plainNames.contains kind then some .other
    else if ((detailedNames.lookup kind).getD []).contains detail then some .other
    else none

end ProgramKind

/-- Why an object file cannot be read. -/
inductive ObjectFault where
  /-- It is not an object file. -/
  | notAnObject
  /-- The name or the contents of a section are not in the file. -/
  | unreadableSection (index : Nat)
  /-- The name of a symbol is not in the file. -/
  | unreadableSymbol
  /-- The name of the section is none of a program. -/
  | unknownSection (name : String)
  /-- The licence is no text that ends with the only zero byte in it. -/
  | malformedLicense (content : Bytes)
  /-- The kernel version does not have four bytes. -/
  | malformedVersion (content : Bytes)
  /-- The declaration of a map is too short. -/
  | malformedMap (name : String)
  /-- Nothing is named in a section that is read by its symbols. -/
  | missingSymbols (sectionName : String)
  /-- The instructions of a program do not have whole lengths. -/
  | malformedCode
  /-- Two functions of a section start at one address. -/
  | repeatedFunction (home address : Nat)
  /-- No function of a section starts at an address where one must. -/
  | missingFunction (home address : Nat)
  /-- A function has no instructions. -/
  | emptyFunction (symbol : Nat) (name : String)
  /-- The maps are declared by types, but the file describes none. -/
  | missingTypes
  /-- The description of types is shorter than its header. -/
  | malformedTypes
  deriving DecidableEq, Repr

namespace ObjectFault

/-- Bytes as a list of numbers. -/
def listText (bytes : Bytes) : String :=
  "[" ++ ", ".intercalate (bytes.map fun b => Text.decimal b.toNat) ++ "]"

/-- What is wrong with a licence. -/
def licenseText (content : Bytes) : String :=
  "invalid license `" ++ listText content ++ "`" ++
    if 2 ≤ content.length ∧ content.getLast? ≠ some 0 then ": missing NULL terminator" else ""

/-- An address in hexadecimal. -/
def addressText (address : Nat) : String :=
  "0x" ++ String.ofList ((Nat.toDigits 16 address).map Char.toUpper)

/-- The fault in words, with what caused it. -/
def chain : ObjectFault → List String
  | .notAnObject => ["error parsing ELF data"]
  | .unreadableSection index => ["error parsing section with index " ++ Text.decimal index]
  | .unreadableSymbol => ["BTF error", "Invalid symbol name"]
  | .unknownSection name => ["invalid program section `" ++ name ++ "`"]
  | .malformedLicense content => [licenseText content]
  | .malformedVersion content => ["invalid kernel version `" ++ listText content ++ "`"]
  | .malformedMap name => ["error parsing map `" ++ name ++ "`"]
  | .missingSymbols sectionName => ["no symbols found in the " ++ sectionName ++ " section"]
  | .malformedCode => ["invalid program code"]
  | .repeatedFunction index address =>
    ["two or more symbols in section `" ++ Text.decimal index ++ "` have the same address " ++
      addressText address]
  | .missingFunction index address =>
    ["unknown symbol in section `" ++ Text.decimal index ++ "` at address " ++
      addressText address]
  | .emptyFunction symbol name =>
    ["invalid symbol, index `" ++ Text.decimal symbol ++ "` name: " ++ name]
  | .missingTypes => ["no BTF parsed for object"]
  | .malformedTypes => ["BTF error", "error parsing BTF header"]

/-- The fault as the failure to read the object file. -/
def failure (fault : ObjectFault) : Failure :=
  ⟨"error parsing BPF object: " ++ (fault.chain.head?).getD "", fault.chain⟩

end ObjectFault

/-- How the contents of a section are read. -/
inductive SectionRole where
  /-- As declarations of maps. -/
  | maps
  /-- As maps that a description of types declares. -/
  | typedMaps
  /-- As functions that programs call. -/
  | functions
  /-- As plain data, which starts as zeros if `isZero` and stays as it is if `isConstant`. -/
  | data (isZero isConstant : Bool)
  /-- As programs. -/
  | programs
  /-- Not as such. -/
  | idle
  deriving DecidableEq, Repr

namespace SectionRole

/-- The roles by the starts of names; the first that fits is taken. -/
def ofStarts : List (String × SectionRole) :=
  [("license", .idle), ("version", .idle), ("maps", .maps), (".maps", .typedMaps),
    (".text", .functions), (".bss", .data true false), (".data", .data false false),
    (".rodata", .data false true)]

/-- The names of sections of types. -/
def typesNames : List String := [".BTF", ".BTF.ext"]

/-- The role of a section of a name. A section of any other name holds programs if it holds
instructions. -/
def ofName (name : String) (hasCode : Bool) : SectionRole :=
  match ofStarts.find? fun entry => entry.1.toList.isPrefixOf name.toList with
  | some (_, role) => role
  | none => if hasCode ∧ !typesNames.contains name then .programs else .idle

end SectionRole

/-- Plain data, which goes into a map of its own. -/
structure PlainData where
  /-- The name of its section. -/
  name : String
  /-- The room that it takes. -/
  size : Nat
  /-- What it starts as. -/
  content : Bytes
  /-- Whether programs must not change it. -/
  isConstant : Bool
  deriving DecidableEq, Repr

/-- What an object file declares. -/
structure Declarations where
  /-- The maps. -/
  maps : List (String × MapShape) := []
  /-- The plain data. -/
  data : List PlainData := []
  /-- The programs. -/
  programs : List (String × ProgramKind) := []

namespace Declarations

/-- What the program of a name is for. Of several, the last one counts. -/
def program? (d : Declarations) (name : String) : Option ProgramKind :=
  d.programs.reverse.lookup name

end Declarations

namespace MapShape

/-- The least length of the declaration of a map: five numbers of four bytes. -/
def declarationSize : Nat := 20

/-- The declaration of a map. The last number says how the kernel is to keep the map. -/
def declaration (shape : MapShape) : Bytes :=
  Bytes.ofNat 4 shape.kind.code ++ Bytes.ofNat 4 shape.keySize ++
    Bytes.ofNat 4 shape.valueSize ++ Bytes.ofNat 4 shape.maxEntries ++ Bytes.ofNat 4 0

/-- Reads the declaration of a map. -/
def ofDeclaration? (content : Bytes) : Option MapShape :=
  if content.length < declarationSize then none
  else do
    let kind ← content.number? false 0 4
    return ⟨⟨kind⟩, ← content.number? false 4 4, ← content.number? false 8 4,
      ← content.number? false 12 4⟩

end MapShape

namespace ObjectImage

/-- Whether some bytes are a text with a zero byte at its end and nowhere else. -/
def isTerminated (content : Bytes) : Bool :=
  2 ≤ content.length && content.idxOf 0 + 1 == content.length

/-- The length of an instruction. -/
def instructionSize : Nat := 8

/-- The length of the header of a description of types. -/
def typesHeaderSize : Nat := 24

/-- The name and the contents of a section. -/
def readSection (s : ObjectSection) : Except ObjectFault (String × Bytes) :=
  match s.name, s.content with
  | some name, some content => .ok (name, content)
  | _, _ => .error (.unreadableSection s.index)

/-- Checks the contents of the section of a name, if there is one. -/
def checkSection (image : ObjectImage) (name : String) (isFine : Bytes → Bool)
    (fault : Bytes → ObjectFault) : Except ObjectFault Unit :=
  match image.find? name with
  | none => .ok ()
  | some s =>
    match readSection s with
    | .error fault => .error fault
    | .ok (_, content) => if isFine content then .ok () else .error (fault content)

/-- Reads the maps that symbols in a section name. -/
def readMaps (content : Bytes) (d : Declarations) :
    List ObjectSymbol → Except ObjectFault Declarations
  | [] => .ok d
  | symbol :: rest =>
    let name := symbol.name.getD ""
    match (content.slice? symbol.address symbol.size).bind MapShape.ofDeclaration? with
    | none => .error (.malformedMap name)
    | some shape => readMaps content { d with maps := d.maps ++ [(name, shape)] } rest

/-- The instructions at an address are of whole lengths. -/
def hasInstructions (content : Bytes) (address size : Nat) : Bool :=
  (content.slice? address size).isSome && size % instructionSize == 0

/-- Reads the programs that symbols in a section name. Other symbols than those of instructions,
and those without a name, do not matter. -/
def readPrograms (content : Bytes) (kind : ProgramKind) (d : Declarations) :
    List ObjectSymbol → Except ObjectFault Declarations
  | [] => .ok d
  | symbol :: rest =>
    let name := symbol.name.getD ""
    if !symbol.isCode ∨ name = "" then readPrograms content kind d rest
    else if hasInstructions content symbol.address symbol.size then
      readPrograms content kind { d with programs := d.programs ++ [(name, kind)] } rest
    else .error .malformedCode

/-- Two of the functions start at one address. -/
def repeated? : List ObjectSymbol → Option Nat
  | [] => none
  | symbol :: rest =>
    if rest.any fun other => other.address == symbol.address then some symbol.address
    else repeated? rest

/-- Reads functions that stand one behind the other from an offset on. The steps are counted, since
each function takes some bytes. -/
def readFunctions (s : ObjectSection) (content : Bytes) (functions : List ObjectSymbol) :
    Nat → Nat → Except ObjectFault Unit
  | 0, _ => .ok ()
  | steps + 1, offset =>
    if content.length ≤ offset then .ok ()
    else
      let address := s.address + offset
      match functions.find? fun symbol => symbol.address == address with
      | none => .error (.missingFunction s.index address)
      | some symbol =>
        if symbol.size = 0 then .error (.emptyFunction symbol.index (symbol.name.getD ""))
        else if hasInstructions content offset symbol.size then
          readFunctions s content functions steps (offset + symbol.size)
        else .error .malformedCode

/-- Adds what one section declares. -/
def addSection (image : ObjectImage) (d : Declarations) (s : ObjectSection) :
    Except ObjectFault Declarations := do
  let (name, content) ← readSection s
  let symbols := image.symbolsIn s
  match SectionRole.ofName name (s.isCode && s.size ≠ 0) with
  | .maps => if symbols.isEmpty then .error (.missingSymbols name) else readMaps content d symbols
  | .typedMaps =>
    if (image.find? ".BTF").isNone then .error .missingTypes
    else if symbols.isEmpty then .error (.missingSymbols name)
    else .ok d
  | .functions =>
    let functions := symbols.filter fun symbol => symbol.isDefinition && symbol.isCode
    match repeated? functions with
    | some address => .error (.repeatedFunction s.index address)
    | none =>
      readFunctions s content functions content.length 0
      return d
  | .data isZero isConstant =>
    let content := if isZero then List.replicate s.size 0 else content
    return { d with data := d.data ++ [⟨name, s.size, content, isConstant⟩] }
  | .programs =>
    match ProgramKind.ofName? name with
    | none => .error (.unknownSection name)
    | some kind =>
      if symbols.isEmpty then .error (.missingSymbols name)
      else readPrograms content kind d symbols
  | .idle => .ok d

/-- Reads an object file. Before its sections in their order, the licence, the version of the
kernel, the names of the symbols and the description of types are checked. -/
def read (image : ObjectImage) : Except ObjectFault Declarations := do
  image.checkSection "license" isTerminated .malformedLicense
  image.checkSection "version" (fun content => content.length == 4) .malformedVersion
  if image.symbols.any fun symbol => symbol.name.isNone then throw .unreadableSymbol
  image.checkSection ".BTF" (fun content => typesHeaderSize ≤ content.length) fun _ =>
    .malformedTypes
  image.sections.foldlM image.addSection {}

end ObjectImage

/-- The instructions of the filter program as it is tried out. They let every packet pass: the
number of that verdict goes into the register for results, and the program ends. -/
def passInstructions : Bytes := [0xB7, 0, 0, 0, 2, 0, 0, 0, 0x95, 0, 0, 0, 0, 0, 0, 0]

/-- An object file with maps and one program. -/
structure ProgramImage where
  /-- The name of the program. -/
  program : String
  /-- The section that its instructions are in. -/
  sectionName : String
  /-- The maps. -/
  maps : List (MapName × MapShape)

namespace ProgramImage

/-- The file: a section of declarations of maps, one behind the other, and the section of the
program. -/
def image (p : ProgramImage) : ObjectImage where
  sections :=
    let maps := p.maps.flatMap fun (_, shape) => shape.declaration
    [⟨1, some "maps", false, 0, maps.length, some maps⟩,
      ⟨2, some p.sectionName, true, 0, passInstructions.length, some passInstructions⟩]
  symbols :=
    (p.maps.zipIdx.map fun ((name, _), i) =>
      ⟨i + 1, some name.text, some 1, i * MapShape.declarationSize, MapShape.declarationSize,
        true, false⟩) ++
      [⟨p.maps.length + 1, some p.program, some 2, 0, passInstructions.length, true, true⟩]

end ProgramImage

/-- What is found where the object file should be. -/
inductive ObjectFile where
  /-- Reading the file failed. -/
  | unreadable (errno : Errno)
  /-- The file is not an object file. -/
  | malformed
  /-- An object file. -/
  | image (image : ObjectImage)

/-- What the bytes of a file say. -/
def ObjectFile.ofBytes : Except Errno ByteArray → ObjectFile
  | .error errno => .unreadable errno
  | .ok bytes =>
    match ObjectFormat.read? bytes.data.toList with
    | none => .malformed
    | some found => .image found

/-- A name as an object file keeps it: a zero ends it. -/
def objectName (name : String) : String :=
  String.ofList (name.toList.takeWhile fun c => c ≠ '\x00')

end SourceFilter
