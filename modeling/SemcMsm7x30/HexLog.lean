import Mathlib

namespace SemcMsm7x30.HexLog

-- NIBBLE_TO_HEX compares the variable of the macro around it, which both macros
-- below pass as its argument.
def NIBBLE_TO_HEX (nibble : UInt8) : UInt8 :=
  let n := nibble &&& 0x0f
  if nibble ≥ 10 then 'A'.toUInt8+n-10 else '0'.toUInt8+n

def HEX_HIGH (b : UInt8) : UInt8 := NIBBLE_TO_HEX ((b>>>4) &&& 0x0f)

def HEX_LOW (b : UInt8) : UInt8 := NIBBLE_TO_HEX (b &&& 0x0f)

def BYTES_PER_LINE : Nat := 16

-- The locals of log_hex, `dest_len` being the size of `out`, and the log.
structure Locals where
  out : Vector UInt8 80
  source : Nat
  dest : Nat
  per_line : Nat
  logged : List (List UInt8)

-- `out[dest++] = b`; there is no successor state when dest is outside of out.
def Locals.push (s : Locals) (b : UInt8) : Option Locals :=
  if inside : s.dest < 80 then some {s with out := s.out.set s.dest b,dest := s.dest+1} else none

-- sprintf's "%8.8s [%8.8x] ": the first eight characters of the name, right
-- justified, and the offset in eight lower-case digits.
def lowerDigit (n : Nat) : UInt8 :=
  if n < 10 then '0'.toUInt8+n.toUInt8 else 'a'.toUInt8+n.toUInt8-10

def sprintf (who : List UInt8) (source : Nat) : List UInt8 :=
  let name := (who.takeWhile (· != 0)).take 8
  List.replicate (8-name.length) ' '.toUInt8 ++ name ++ [' '.toUInt8,'['.toUInt8] ++
    (List.range 8).reverse.map (fun k => lowerDigit (source/16^k%16)) ++ [']'.toUInt8,' '.toUInt8]

def Locals.pushAll (s : Locals) : List UInt8 → Option Locals
  | [] => some s
  | b::rest => do
    let s ← s.push b
    s.pushAll rest

def writePrefix (who : List UInt8) (s : Locals) : Option Locals := do
  let text := sprintf who s.source
  let written ← {s with dest := 0}.pushAll (text ++ [0])
  some {written with dest := s.dest+text.length}

def fill (buffer : List UInt8) (length : Int) (fuel : Nat) (s : Locals) : Option Locals :=
  if s.source < length ∧ 80-s.dest > 3 ∧ s.per_line < BYTES_PER_LINE then
    match fuel with
    | 0 => none
    | fuel+1 => do
      let high ← buffer[s.source]?
      let s ← s.push (HEX_HIGH high)
      let low ← buffer[s.source]?
      let s ← s.push (HEX_LOW low)
      let s ← s.push ' '.toUInt8
      fill buffer length fuel {s with source := s.source+1,per_line := s.per_line+1}
  else some s

def RLOGD (s : Locals) : Option Locals :=
  if 0 ∈ s.out.toList then
    some {s with logged := s.logged ++ [s.out.toList.takeWhile (· != 0) ++ ['\n'.toUInt8]]}
  else none

def logLine (length : Int) (s : Locals) : Option Locals :=
  if s.dest < 80 ∧ (s.per_line = BYTES_PER_LINE ∨ s.source ≥ length) then do
    let s ← s.push 0
    RLOGD {s with per_line := 0,dest := 0}
  else some s

def line (who buffer : List UInt8) (length : Int) (fuel : Nat) (s : Locals) : Option Locals := do
  let s ← writePrefix who s
  let s ← fill buffer length fuel s
  logLine length s

def lines (who buffer : List UInt8) (length : Int) : Nat → Locals → Option Locals
  | 0,_ => none
  | fuel+1,s => do
    let s ← line who buffer length fuel s
    if s.source < length ∧ s.dest < 80 then lines who buffer length fuel s else some s

def log_hex (fuel : Nat) (out : Vector UInt8 80) (who buffer : List UInt8) (length : Int) :
    Option (List (List UInt8)) := do
  let s ← lines who buffer length fuel ⟨out,0,0,0,[]⟩
  some s.logged

def upperDigits : List UInt8 := "0123456789ABCDEF".toList.map Char.toUInt8

def digitsOf (b : UInt8) : List UInt8 :=
  [upperDigits.getD (b.toNat/16) 0,upperDigits.getD (b.toNat%16) 0]

def lineOf (who : List UInt8) (source : Nat) (group : List UInt8) : List UInt8 :=
  sprintf who source ++ group.flatMap (fun b => digitsOf b ++ [' '.toUInt8]) ++ ['\n'.toUInt8]

def linesOf (who : List UInt8) : Nat → List (List UInt8) → List (List UInt8)
  | _,[] => []
  | source,group::groups => lineOf who source group::linesOf who (source+group.length) groups

theorem upper_digits : ∀ n : Fin 256,
    [HEX_HIGH (UInt8.ofNat n),HEX_LOW (UInt8.ofNat n)] = digitsOf (UInt8.ofNat n) ∧
      ∀ digit ∈ digitsOf (UInt8.ofNat n),digit ≠ 0 := by
  decide +kernel

theorem byte_digits (b : UInt8) :
    [HEX_HIGH b,HEX_LOW b] = digitsOf b ∧ ∀ digit ∈ digitsOf b,digit ≠ 0 := by
  have digits := upper_digits ⟨b.toNat,b.toNat_lt⟩
  rwa [UInt8.ofNat_toNat] at digits

theorem lower_digit_visible : ∀ n : Fin 16,lowerDigit n ≠ 0 := by decide +kernel

theorem sprintf_length (who : List UInt8) (source : Nat) : (sprintf who source).length = 20 := by
  simp only [sprintf,List.length_append,List.length_replicate,List.length_cons,List.length_nil,
    List.length_map,List.length_reverse,List.length_range,List.length_take]
  omega

theorem sprintf_visible (who : List UInt8) (source : Nat) : ∀ b ∈ sprintf who source,b ≠ 0 := by
  have name_visible : ∀ b ∈ (who.takeWhile (· != 0)).take 8,b ≠ 0 := by
    intro b member
    simpa using List.mem_takeWhile_imp (List.mem_of_mem_take member)
  intro b member
  simp only [sprintf,List.mem_append,List.mem_replicate,List.mem_map,List.mem_cons,
    List.not_mem_nil,or_false] at member
  rcases member with (((spaces | name) | open_bracket) | digits) | close_bracket
  · rw [spaces.2]
    decide
  · exact name_visible b name
  · rcases open_bracket with rfl | rfl <;> decide
  · obtain ⟨k,-,rfl⟩ := digits
    exact lower_digit_visible ⟨source/16^k%16,Nat.mod_lt _ (by decide)⟩
  · rcases close_bracket with rfl | rfl <;> decide

def Holds (s : Locals) (text : List UInt8) : Prop :=
  s.dest = text.length ∧ s.out.toList.take text.length = text

theorem push_holds {s : Locals} {text : List UInt8} (holds : Holds s text)
    (room : text.length < 80) (b : UInt8) :
    ∃ out, s.push b = some {s with out := out,dest := s.dest+1} ∧
      Holds {s with out := out,dest := s.dest+1} (text ++ [b]) := by
  obtain ⟨at_end,start⟩ := holds
  have inside : s.dest < 80 := by omega
  refine ⟨s.out.set s.dest b,by rw [Locals.push,dif_pos inside],?_,?_⟩
  · simp only [at_end,List.length_append,List.length_singleton]
  · have inside_list : s.dest < s.out.toList.length := by rw [Vector.length_toList]; exact inside
    rw [List.length_append,List.length_singleton,←at_end]
    simp only [Vector.toList_set]
    rw [List.take_add_one,List.take_set_of_le (le_refl _),List.getElem?_set_self inside_list,at_end,
      start]
    rfl

theorem push_all_holds (bytes : List UInt8) {s : Locals} {text : List UInt8} (holds : Holds s text)
    (room : text.length+bytes.length ≤ 80) :
    ∃ out, s.pushAll bytes = some {s with out := out,dest := s.dest+bytes.length} ∧
      Holds {s with out := out,dest := s.dest+bytes.length} (text ++ bytes) := by
  induction bytes generalizing s text with
  | nil => exact ⟨s.out,rfl,by simpa using holds⟩
  | cons b rest ih =>
    rw [List.length_cons] at room
    obtain ⟨out,pushed,one_more⟩ := push_holds holds (by omega) b
    obtain ⟨last,all,ended⟩ := ih one_more (by rw [List.length_append,List.length_singleton]; omega)
    have dest : s.dest+(b::rest).length = s.dest+1+rest.length := by rw [List.length_cons]; omega
    refine ⟨last,?_,?_⟩
    · rw [Locals.pushAll,pushed,dest]
      exact all
    · rw [dest,←List.append_cons] at *
      exact ended

theorem prefix_holds (who : List UInt8) {s : Locals} (fresh : s.dest = 0) :
    ∃ out, writePrefix who s = some {s with out := out,dest := 20} ∧
      Holds {s with out := out,dest := 20} (sprintf who s.source) := by
  have length := sprintf_length who s.source
  have empty : Holds {s with dest := 0} [] := ⟨rfl,rfl⟩
  obtain ⟨out,pushed,-,start⟩ := push_all_holds (sprintf who s.source ++ [0]) empty
    (by rw [List.length_append,length]; decide)
  refine ⟨out,?_,length.symm,?_⟩
  · rw [writePrefix,pushed,length,fresh]
    rfl
  · simp only [List.nil_append,List.length_append,List.length_singleton] at start
    have shorter := congrArg (List.take 20) start
    rw [List.take_take,List.take_append_of_le_length (by omega),length,
      List.take_of_length_le (le_of_eq length)] at shorter
    rw [length]
    exact shorter

theorem fill_group (buffer : List UInt8) (length : Int) (group : List UInt8) {rest : List UInt8}
    {s : Locals} {text : List UInt8} (holds : Holds s text)
    (columns : text.length = 20+3*s.per_line) (bytes : buffer.drop s.source = group ++ rest)
    (fits : s.per_line+group.length ≤ BYTES_PER_LINE) (within : s.source+group.length ≤ length.toNat)
    (last : s.per_line+group.length = BYTES_PER_LINE ∨ length ≤ (s.source+group.length : Nat)) :
    ∃ out, (∀ fuel,group.length ≤ fuel → fill buffer length fuel s =
        some {s with
          out := out
          source := s.source+group.length
          dest := s.dest+3*group.length
          per_line := s.per_line+group.length}) ∧
      Holds {s with out := out,dest := s.dest+3*group.length}
        (text ++ group.flatMap fun b => digitsOf b ++ [' '.toUInt8]) := by
  induction group generalizing s text with
  | nil =>
    refine ⟨s.out,?_,by simpa using holds⟩
    intro fuel _
    have stops : ¬(s.source < length ∧ 80-s.dest > 3 ∧ s.per_line < BYTES_PER_LINE) := by
      intro more
      obtain ⟨left,-,short⟩ := more
      simp only [List.length_nil,Nat.add_zero] at last
      omega
    rw [fill.eq_def,if_neg stops]
    rfl
  | cons b group ih =>
    rw [List.length_cons] at fits within last
    simp only [BYTES_PER_LINE] at fits last ih
    have at_end := holds.1
    have more : s.source < length ∧ 80-s.dest > 3 ∧ s.per_line < BYTES_PER_LINE := by
      simp only [BYTES_PER_LINE]
      omega
    have next : buffer[s.source]? = some b := by
      rw [←Nat.add_zero s.source,←List.getElem?_drop,bytes]
      rfl
    have behind : buffer.drop (s.source+1) = group ++ rest := by
      rw [←List.drop_drop,bytes]
      rfl
    obtain ⟨high,push_high,holds_high⟩ := push_holds holds (by omega) (HEX_HIGH b)
    obtain ⟨low,push_low,holds_low⟩ := push_holds holds_high (by simp; omega) (HEX_LOW b)
    obtain ⟨blank,push_blank,holds_blank⟩ := push_holds holds_low (by simp; omega) ' '.toUInt8
    have one : text ++ [HEX_HIGH b] ++ [HEX_LOW b] ++ [' '.toUInt8] =
        text ++ (digitsOf b ++ [' '.toUInt8]) := by
      rw [←(byte_digits b).1]
      simp
    rw [one] at holds_blank
    have longer : (text ++ (digitsOf b ++ [' '.toUInt8])).length = 20+3*(s.per_line+1) := by
      rw [List.length_append,List.length_append,columns]
      simp only [digitsOf,List.length_cons,List.length_nil]
      omega
    obtain ⟨out,filled,ended⟩ := @ih
      {s with out := blank,dest := s.dest+1+1+1,source := s.source+1,per_line := s.per_line+1}
      _ holds_blank longer behind (by dsimp only; omega) (by dsimp only; omega)
      (by dsimp only; omega)
    have dest : s.dest+3*(b::group).length = s.dest+1+1+1+3*group.length := by
      rw [List.length_cons]
      omega
    refine ⟨out,?_,?_⟩
    · intro fuel enough
      rw [List.length_cons] at enough
      obtain ⟨fuel,rfl⟩ := Nat.exists_eq_add_one.mpr (show 0 < fuel by omega)
      have rest_filled := filled fuel (by omega)
      rw [fill,if_pos more,next]
      simp only [Option.bind_eq_bind,Option.bind_some,push_high,next,push_low,push_blank,
        rest_filled,List.length_cons]
      congr 2 <;> omega
    · rw [List.flatMap_cons,←List.append_assoc,dest]
      exact ended

theorem log_holds (length : Int) {s : Locals} {text : List UInt8} (holds : Holds s text)
    (room : text.length < 80) (visible : ∀ b ∈ text,b ≠ 0)
    (ended : s.per_line = BYTES_PER_LINE ∨ s.source ≥ length) :
    ∃ out, logLine length s =
      some ⟨out,s.source,0,0,s.logged ++ [text ++ ['\n'.toUInt8]]⟩ := by
  have inside : s.dest < 80 := by rw [holds.1]; exact room
  obtain ⟨out,pushed,-,start⟩ := push_holds holds room 0
  have split : out.toList = text ++ 0::out.toList.drop (text.length+1) := by
    rw [List.length_append,List.length_singleton] at start
    have parts := List.take_append_drop (text.length+1) out.toList
    rw [start,List.append_assoc] at parts
    exact parts.symm
  have found : 0 ∈ out.toList := by rw [split]; simp
  have shown : out.toList.takeWhile (· != 0) = text := by
    rw [split,List.takeWhile_append_of_pos (by simpa using visible)]
    simp
  refine ⟨out,?_⟩
  rw [logLine,if_pos ⟨inside,ended⟩,pushed]
  simp only [Option.bind_eq_bind,Option.bind_some,RLOGD,if_pos found,shown]

theorem line_group (who buffer : List UInt8) (length : Int) (group : List UInt8)
    {rest : List UInt8} {s : Locals} (fresh : s.dest = 0) (first : s.per_line = 0)
    (bytes : buffer.drop s.source = group ++ rest) (fits : group.length ≤ BYTES_PER_LINE)
    (within : s.source+group.length ≤ length.toNat)
    (last : group.length = BYTES_PER_LINE ∨ length ≤ (s.source+group.length : Nat)) :
    ∃ out, ∀ fuel,group.length ≤ fuel → line who buffer length fuel s =
      some ⟨out,s.source+group.length,0,0,s.logged ++ [lineOf who s.source group]⟩ := by
  have prefix_length := sprintf_length who s.source
  obtain ⟨start,prefixed,text_holds⟩ := prefix_holds who fresh
  obtain ⟨full,filled,line_holds⟩ := fill_group buffer length group text_holds
    (by simp only [first]; omega) bytes (by simpa only [first,Nat.zero_add] using fits) within
    (by simpa only [first,Nat.zero_add] using last)
  have visible : ∀ b ∈ sprintf who s.source ++ group.flatMap fun b => digitsOf b ++ [' '.toUInt8],
      b ≠ 0 := by
    intro b member
    rcases List.mem_append.mp member with text | digits
    · exact sprintf_visible who s.source b text
    · obtain ⟨byte,-,shown⟩ := List.mem_flatMap.mp digits
      rcases List.mem_append.mp shown with digit | blank
      · exact (byte_digits byte).2 b digit
      · rw [List.mem_singleton.mp blank]
        decide
  have columns : (group.flatMap fun b => digitsOf b ++ [' '.toUInt8]).length = 3*group.length := by
    rw [List.length_flatMap]
    simp only [digitsOf,List.length_append,List.length_cons,List.length_nil,List.map_const',
      List.sum_replicate_nat]
    omega
  have room : (sprintf who s.source ++
      group.flatMap fun b => digitsOf b ++ [' '.toUInt8]).length < 80 := by
    simp only [BYTES_PER_LINE] at fits
    rw [List.length_append,columns]
    omega
  have holds_full : Holds ⟨full,s.source+group.length,20+3*group.length,s.per_line+group.length,
      s.logged⟩ (sprintf who s.source ++ group.flatMap fun b => digitsOf b ++ [' '.toUInt8]) :=
    line_holds
  obtain ⟨out,shown⟩ := log_holds length holds_full room visible (by
    simp only [first,Nat.zero_add]
    exact last)
  refine ⟨out,?_⟩
  intro fuel enough
  rw [line,prefixed]
  simp only [Option.bind_eq_bind,Option.bind_some,filled fuel enough]
  exact shown

theorem lines_groups (who buffer : List UInt8) (length : Int) (readable : length.toNat ≤ buffer.length)
    (left source : Nat) (whole : source+left = length.toNat) :
    ∃ groups : List (List UInt8), groups.flatten = (buffer.drop source).take left ∧
      (∀ group ∈ groups,group.length ≤ BYTES_PER_LINE) ∧
      ∀ fuel s,left+BYTES_PER_LINE < fuel → s.source = source → s.dest = 0 → s.per_line = 0 →
        ∃ ended, lines who buffer length fuel s = some ended ∧
          ended.logged = s.logged ++ linesOf who source groups := by
  induction left using Nat.strong_induction_on generalizing source with
  | h left ih =>
    have available : ∀ n,n ≤ left → ((buffer.drop source).take n).length = n := by
      intro n bounded
      rw [List.length_take_of_le (by rw [List.length_drop]; omega)]
    by_cases final : left ≤ BYTES_PER_LINE
    · have size := available left (le_refl left)
      refine ⟨[(buffer.drop source).take left],List.flatten_singleton,?_,?_⟩
      · intro group member
        rw [List.mem_singleton.mp member,size]
        exact final
      · intro fuel s enough at_source fresh first
        obtain ⟨fuel,rfl⟩ := Nat.exists_eq_add_one.mpr (show 0 < fuel by omega)
        subst at_source
        obtain ⟨out,printed⟩ := line_group who buffer length ((buffer.drop s.source).take left) fresh
          first (List.take_append_drop left _).symm (by omega) (by omega) (.inr (by omega))
        refine ⟨⟨out,s.source+left,0,0,s.logged ++ linesOf who s.source
          [(buffer.drop s.source).take left]⟩,?_,rfl⟩
        rw [lines,printed fuel (by omega),Option.bind_eq_bind,Option.bind_some,if_neg]
        · rw [size,linesOf,linesOf]
        · simp only [size]
          omega
    · have size := available BYTES_PER_LINE (by omega)
      have positive : 0 < BYTES_PER_LINE := by decide
      obtain ⟨groups,rest,fits,runs⟩ :=
        ih (left-BYTES_PER_LINE) (by omega) (source+BYTES_PER_LINE) (by omega)
      refine ⟨(buffer.drop source).take BYTES_PER_LINE::groups,?_,?_,?_⟩
      · rw [List.flatten_cons,rest,←List.drop_drop,←List.take_add]
        congr 1
        omega
      · intro group member
        rcases List.mem_cons.mp member with rfl | later
        · exact List.length_take_le _ _
        · exact fits group later
      · intro fuel s enough at_source fresh first
        obtain ⟨fuel,rfl⟩ := Nat.exists_eq_add_one.mpr (show 0 < fuel by omega)
        subst at_source
        obtain ⟨out,printed⟩ := line_group who buffer length
          ((buffer.drop s.source).take BYTES_PER_LINE) fresh first
          (List.take_append_drop BYTES_PER_LINE _).symm (by omega) (by omega) (.inl size)
        obtain ⟨ended,ran,logged⟩ := runs fuel ⟨out,s.source+BYTES_PER_LINE,0,0,
          s.logged ++ [lineOf who s.source ((buffer.drop s.source).take BYTES_PER_LINE)]⟩ (by omega)
          rfl rfl rfl
        refine ⟨ended,?_,?_⟩
        · rw [lines,printed fuel (by omega),Option.bind_eq_bind,Option.bind_some,if_pos]
          · rw [size]
            exact ran
          · simp only [size]
            omega
        · rw [logged,List.append_assoc,linesOf,size]
          rfl

theorem log_hex_prints_all (out : Vector UInt8 80) (who buffer : List UInt8) (length : Int)
    (readable : length.toNat ≤ buffer.length) :
    ∃ groups : List (List UInt8), groups.flatten = buffer.take length.toNat ∧
      (∀ group ∈ groups,group.length ≤ 16) ∧
      ∀ fuel,length.toNat+16 < fuel →
        log_hex fuel out who buffer length = some (linesOf who 0 groups) := by
  obtain ⟨groups,bytes,fits,runs⟩ :=
    lines_groups who buffer length readable length.toNat 0 (Nat.zero_add _)
  refine ⟨groups,bytes,fits,?_⟩
  intro fuel enough
  obtain ⟨ended,ran,logged⟩ := runs fuel ⟨out,0,0,0,[]⟩ enough rfl rfl rfl
  rw [log_hex,ran]
  simp only [Option.bind_eq_bind,Option.bind_some,logged,List.nil_append]

def payloadName : List UInt8 := "BtSapTest-Payload".toList.map Char.toUInt8

def twentyBytes : List UInt8 := (List.range 20).map fun k => (13*k).toUInt8

theorem log_hex_prints_twenty_bytes : ∃ groups : List (List UInt8),
    groups.flatten = twentyBytes.take (20 : Int).toNat ∧ (∀ group ∈ groups,group.length ≤ 16) ∧
      ∀ fuel,(20 : Int).toNat+16 < fuel →
        log_hex fuel (Vector.replicate 80 0xcd) payloadName twentyBytes 20 =
          some (linesOf payloadName 0 groups) :=
  log_hex_prints_all (Vector.replicate 80 0xcd) payloadName twentyBytes 20 (by decide +kernel)

example : log_hex 20 (Vector.replicate 80 0xcd) payloadName [0x0f,0xa5] 2 =
    some ["BtSapTes [00000000] 0F A5 \n".toList.map Char.toUInt8] := by
  decide +kernel

end SemcMsm7x30.HexLog
