import SmallScheme.Proofs.Assembly.Lines
import SmallScheme.Proofs.Assembly.Numbers

/-!
# Moves and their texts

Operands begin differently: registers with a percent sign, immediate numbers with a dollar sign,
places in memory with neither of the two. No operand has a comma, so the first comma of a move ends
its source. A move can therefore be told from its text as soon as its labels are identifiers
(`texts_tell_moves`), but for the address, which counts modulo the number of addresses. It has no
text if a number in it is too long (`text_of_long_immediate`), so the argument is about how a move
is spelled, whatever its numbers are.
-/

namespace SmallScheme.Assembly

/-- The characters of identifiers: letters, digits, the underscore and the point. Whatever is not
ASCII passes for a letter. -/
def isIdentifierCharacter (c : Char) : Bool :=
  c.isAlphanum || c == '_' || c == '.' || 128 ≤ c.toNat

/-- A label of such characters, the first of which is no digit. -/
structure IsIdentifier (label : String) : Prop where
  characters : ∀ c ∈ label.toList, isIdentifierCharacter c
  head : ∀ c ∈ label.toList.head?, c.isDigit = false

namespace Memory

/-- The numbers that a place is written with in decimal: the distance from a register. -/
def decimals : Memory → List Int
  | .displaced distance _ => [distance]
  | _ => []

/-- How a place is spelled, with a number of any length. -/
def spelling : Memory → String
  | .absolute address => hexadecimal (address % addressCount).toNat
  | .displaced distance base => dereference (toString distance) base
  | .labelled label base => dereference label base

/-- A place whose label, if it has one, is an identifier. -/
def Legible : Memory → Prop
  | .labelled label _ => IsIdentifier label
  | _ => True

/-- Places that are given in the same way, by the same values. Absolute addresses count modulo the
number of addresses. -/
inductive Same : Memory → Memory → Prop
  | absolute {address other : Int} :
      address % addressCount = other % addressCount → Same (.absolute address) (.absolute other)
  | displaced (distance : Int) (base : Register) :
      Same (.displaced distance base) (.displaced distance base)
  | labelled (label : String) (base : Register) :
      Same (.labelled label base) (.labelled label base)

end Memory

namespace Move

/-- The numbers that a move is written with in decimal: an immediate one, and distances. -/
def decimals : Move → List Int
  | .registerToRegister _ _ => []
  | .immediateToRegister value _ => [value]
  | .immediateToMemory value place => value :: place.decimals
  | .registerToMemory _ place | .memoryToRegister place _ | .doubleToRegister place _ =>
    place.decimals

/-- A move whose numbers are not too long. -/
def Writable (move : Move) : Prop :=
  ∀ number ∈ move.decimals, Numeral.isTooLong number = false

/-- A move whose labels are identifiers. -/
def Legible : Move → Prop
  | .registerToMemory _ place | .immediateToMemory _ place
  | .memoryToRegister place _ | .doubleToRegister place _ => place.Legible
  | _ => True

/-- Moves of one kind with the same operands. -/
inductive Same : Move → Move → Prop
  | registerToRegister (source target : Register) :
      Same (.registerToRegister source target) (.registerToRegister source target)
  | immediateToRegister (value : Int) (target : Register) :
      Same (.immediateToRegister value target) (.immediateToRegister value target)
  | registerToMemory (source : Register) {target target' : Memory} : target.Same target' →
      Same (.registerToMemory source target) (.registerToMemory source target')
  | immediateToMemory (value : Int) {target target' : Memory} : target.Same target' →
      Same (.immediateToMemory value target) (.immediateToMemory value target')
  | memoryToRegister {source source' : Memory} (target : Register) : source.Same source' →
      Same (.memoryToRegister source target) (.memoryToRegister source' target)
  | doubleToRegister {source source' : Memory} (target : Register) : source.Same source' →
      Same (.doubleToRegister source target) (.doubleToRegister source' target)

end Move

/-- What a move takes a quantity from, or puts it into. -/
inductive Operand where
  | register (name : Register)
  | immediate (value : Int)
  | memory (place : Memory)

namespace Operand

/-- How an operand is spelled, with a number of any length. -/
def spelling : Operand → String
  | .register name => name.text
  | .immediate value => "$" ++ toString value
  | .memory place => place.spelling

/-- An operand whose label, if it has one, is an identifier. -/
def Legible : Operand → Prop
  | .memory place => place.Legible
  | _ => True

/-- Operands of one kind with the same value. -/
inductive Same : Operand → Operand → Prop
  | register (name : Register) : Same (.register name) (.register name)
  | immediate (value : Int) : Same (.immediate value) (.immediate value)
  | memory {place other : Memory} : place.Same other → Same (.memory place) (.memory other)

end Operand

namespace Register

theorem name_inj {register other : Register} : register.name = other.name ↔ register = other := by
  refine ⟨fun h => ?_, fun h => h ▸ rfl⟩
  have hfound : ofName register.name = .ok register := ofName_name register
  rw [h, ofName_name] at hfound
  exact (Except.ok.inj hfound).symm

theorem text_inj {register other : Register} : register.text = other.text ↔ register = other := by
  rw [text, text, String.append_right_inj, name_inj]

/-- A register begins with a percent sign. -/
theorem head?_text (register : Register) : register.text.toList.head? = some '%' := by
  simp [text]

theorem comma_notMem_text (register : Register) : ',' ∉ register.text.toList := by
  cases register <;> simp [text, name]

end Register

theorem IsIdentifier.notMem {label : String} (h : IsIdentifier label) {c : Char}
    (hc : isIdentifierCharacter c = false) : c ∉ label.toList := fun hmem =>
  Bool.false_ne_true (hc.symm.trans (h.characters c hmem))

/-- No label is a distance: a decimal number begins with a digit or a sign. -/
theorem IsIdentifier.ne_toString {label : String} (h : IsIdentifier label) (distance : Int) :
    toString distance ≠ label := by
  rintro rfl
  obtain ⟨c, hc, hdigit | rfl⟩ := exists_head?_toString distance
  · exact Bool.false_ne_true ((h.head c hc).symm.trans hdigit)
  · exact h.notMem (c := '-') rfl (List.mem_of_head? hc)

namespace Memory

variable {place other : Memory}

/-- A place whose numbers are not too long is written as it is spelled. -/
theorem text_of_writable (h : ∀ number ∈ place.decimals, Numeral.isTooLong number = false) :
    place.text = .ok place.spelling := by
  cases place with
  | absolute | labelled => rfl
  | displaced distance base =>
    rw [text, Numeral.decimal_eq_ok_iff.mpr ⟨h distance List.mem_cons_self, rfl⟩]
    rfl

/-- A place with a number that is too long has no text. -/
theorem text_of_long {number : Int} (hmem : number ∈ place.decimals)
    (hlong : Numeral.isTooLong number = true) : place.text = .error .numberTooLong := by
  cases place with
  | absolute | labelled => cases hmem
  | displaced distance base =>
    obtain rfl := List.mem_singleton.mp hmem
    rw [text, Numeral.decimal_eq_error_iff.mpr ⟨hlong, rfl⟩]
    rfl

/-- A place that is reached from a register, with what stands in front of the register. -/
theorem dereference_inj {front front' : String} {base base' : Register}
    (hfront : '(' ∉ front.toList) (hfront' : '(' ∉ front'.toList)
    (h : dereference front base = dereference front' base') : front = front' ∧ base = base' := by
  have hopen : "(".toList = ['('] := rfl
  have hlists := congrArg String.toList h
  simp only [dereference, String.toList_append, hopen, List.append_assoc,
    List.singleton_append] at hlists
  obtain ⟨hfronts, hbacks⟩ := eq_of_append_cons_eq hfront hfront' hlists
  have hbases := List.append_cancel_right hbacks
  exact ⟨String.toList_injective hfronts, Register.text_inj.mp (String.toList_injective hbases)⟩

theorem spelling_absolute_eq_iff {address address' : Int} :
    (absolute address).spelling = (absolute address').spelling ↔
      address % addressCount = address' % addressCount := by
  have hcount : (0 : Int) < addressCount := by decide
  have hpos := Int.emod_nonneg address hcount.ne'
  have hpos' := Int.emod_nonneg address' hcount.ne'
  rw [spelling, spelling, hexadecimal_inj]
  omega

/-- An absolute address is the only place that is not reached from a register. -/
theorem spelling_absolute_ne_dereference (address : Int) (front : String) (base : Register) :
    (absolute address).spelling ≠ dereference front base := by
  intro h
  have hmem : '(' ∈ (absolute address).spelling.toList := by simp [h, dereference]
  exact notMem_hexadecimal rfl _ hmem

/-- Places can be told from how they are spelled. -/
theorem spelling_eq_iff (h : place.Legible) (h' : other.Legible) :
    place.spelling = other.spelling ↔ place.Same other := by
  constructor
  · intro htext
    cases place with
    | absolute address =>
      cases other with
      | absolute address' => exact .absolute (spelling_absolute_eq_iff.mp htext)
      | displaced _ base | labelled _ base =>
        exact absurd htext (spelling_absolute_ne_dereference address _ base)
    | displaced distance base =>
      have hfront : '(' ∉ (toString distance).toList := notMem_toString rfl (by decide) distance
      cases other with
      | absolute address =>
        exact absurd htext.symm (spelling_absolute_ne_dereference address _ base)
      | displaced distance' base' =>
        have hfront' := notMem_toString (c := '(') rfl (by decide) distance'
        obtain ⟨hdistance, rfl⟩ := dereference_inj hfront hfront' htext
        obtain rfl := toString_inj.mp hdistance
        exact .displaced distance base
      | labelled label base' =>
        obtain ⟨hlabel, _⟩ := dereference_inj hfront (h'.notMem rfl) htext
        exact absurd hlabel (h'.ne_toString distance)
    | labelled label base =>
      have hfront : '(' ∉ label.toList := h.notMem rfl
      cases other with
      | absolute address =>
        exact absurd htext.symm (spelling_absolute_ne_dereference address _ base)
      | displaced distance base' =>
        have hfront' := notMem_toString (c := '(') rfl (by decide) distance
        obtain ⟨hlabel, _⟩ := dereference_inj hfront hfront' htext
        exact absurd hlabel.symm (h.ne_toString distance)
      | labelled label' base' =>
        obtain ⟨rfl, rfl⟩ := dereference_inj hfront (h'.notMem rfl) htext
        exact .labelled label base
  · intro hsame
    cases hsame with
    | absolute hremainder => exact spelling_absolute_eq_iff.mpr hremainder
    | displaced _ _ | labelled _ _ => rfl

theorem head?_dereference_ne {front : String} {c : Char} (hfront : c ∉ front.toList)
    (hopen : c ≠ '(') (base : Register) :
    (dereference front base).toList.head? ≠ some c := by
  rcases htext : front.toList with _ | ⟨first, rest⟩
  · simp [dereference, htext, hopen.symm]
  · rintro h
    have hfirst : first = c := by simpa [dereference, htext] using h
    exact hfront (hfirst ▸ htext ▸ List.mem_cons_self)

/-- A place is an absolute address, or it is reached from a register, behind a front of digits, a
sign and characters of identifiers. -/
theorem Legible.absolute_or_dereference (h : place.Legible) :
    (∃ address, place = .absolute address) ∨
      ∃ (front : String) (base : Register), place.spelling = dereference front base ∧
        ∀ c, isIdentifierCharacter c = false → c ≠ '-' → c ∉ front.toList := by
  cases place with
  | absolute address => exact Or.inl ⟨address, rfl⟩
  | displaced distance base =>
    refine Or.inr ⟨toString distance, base, rfl, fun c hc hsign => ?_⟩
    have hdigit : c.isDigit = false := by
      simp only [isIdentifierCharacter, Char.isAlphanum, Bool.or_eq_false_iff] at hc
      exact hc.1.1.1.2
    exact notMem_toString hdigit hsign distance
  | labelled label base => exact Or.inr ⟨label, base, rfl, fun _ hc _ => h.notMem hc⟩

/-- No place in memory begins as a register or an immediate number does. -/
theorem head?_spelling_ne (h : place.Legible) :
    place.spelling.toList.head? ≠ some '%' ∧ place.spelling.toList.head? ≠ some '$' := by
  rcases h.absolute_or_dereference with ⟨address, rfl⟩ | ⟨front, base, htext, hfront⟩
  · simp [spelling, toList_hexadecimal]
  · rw [htext]
    exact ⟨head?_dereference_ne (hfront '%' rfl (by decide)) (by decide) base,
      head?_dereference_ne (hfront '$' rfl (by decide)) (by decide) base⟩

theorem comma_notMem_spelling (h : place.Legible) : ',' ∉ place.spelling.toList := by
  rcases h.absolute_or_dereference with ⟨address, rfl⟩ | ⟨front, base, htext, hfront⟩
  · exact notMem_hexadecimal rfl _
  · simp [htext, dereference, hfront ',' rfl (by decide), base.comma_notMem_text]

end Memory

/-- A number that is not too long is written behind a dollar sign. -/
theorem immediate_of_short {value : Int} (h : Numeral.isTooLong value = false) :
    immediate value = .ok ("$" ++ toString value) := by
  rw [immediate, Numeral.decimal_eq_ok_iff.mpr ⟨h, rfl⟩]
  rfl

theorem immediate_of_long {value : Int} (h : Numeral.isTooLong value = true) :
    immediate value = .error .numberTooLong := by
  rw [immediate, Numeral.decimal_eq_error_iff.mpr ⟨h, rfl⟩]
  rfl

namespace Operand

variable {operand other : Operand}

/-- No operand has a comma. -/
theorem comma_notMem_spelling (h : operand.Legible) : ',' ∉ operand.spelling.toList := by
  cases operand with
  | register name => exact name.comma_notMem_text
  | immediate value =>
    have hvalue : ',' ∉ (toString value).toList := notMem_toString rfl (by decide) value
    exact notMem_append_iff.mpr ⟨by simp, hvalue⟩
  | memory place => exact Memory.comma_notMem_spelling h

theorem head?_spelling_immediate (value : Int) :
    (immediate value).spelling.toList.head? = some '$' := by
  simp [spelling]

/-- Operands can be told from how they are spelled: the first character tells the kind. -/
theorem spelling_eq_iff (h : operand.Legible) (h' : other.Legible) :
    operand.spelling = other.spelling ↔ operand.Same other := by
  constructor
  · intro htext
    have hhead : operand.spelling.toList.head? = other.spelling.toList.head? := by rw [htext]
    cases operand with
    | register name =>
      have hname : (register name).spelling.toList.head? = some '%' := name.head?_text
      cases other with
      | register name' =>
        obtain rfl := Register.text_inj.mp htext
        exact .register name
      | immediate value =>
        rw [hname, head?_spelling_immediate] at hhead
        exact absurd hhead (by decide)
      | memory place => exact absurd (hhead.symm.trans hname) (Memory.head?_spelling_ne h').1
    | immediate value =>
      cases other with
      | register name =>
        have hname : (register name).spelling.toList.head? = some '%' := name.head?_text
        rw [hname, head?_spelling_immediate] at hhead
        exact absurd hhead (by decide)
      | immediate value' =>
        obtain rfl := toString_inj.mp ((String.append_right_inj "$").mp htext)
        exact .immediate value
      | memory place =>
        exact absurd (hhead.symm.trans (head?_spelling_immediate value))
          (Memory.head?_spelling_ne h').2
    | memory place =>
      cases other with
      | register name => exact absurd (hhead.trans name.head?_text) (Memory.head?_spelling_ne h).1
      | immediate value =>
        exact absurd (hhead.trans (head?_spelling_immediate value)) (Memory.head?_spelling_ne h).2
      | memory place' => exact .memory ((Memory.spelling_eq_iff h h').mp htext)
  · intro hsame
    cases hsame with
    | register _ | immediate _ => rfl
    | memory hplaces => exact (Memory.spelling_eq_iff h h').mpr hplaces

end Operand

namespace Move

variable {move other : Move}

/-- The word that a move begins with. -/
def mnemonic : Move → String
  | .doubleToRegister _ _ => "movsd"
  | _ => "movq"

/-- What a move takes its quantity from. -/
def source : Move → Operand
  | .registerToRegister source _ | .registerToMemory source _ => .register source
  | .immediateToRegister value _ | .immediateToMemory value _ => .immediate value
  | .memoryToRegister source _ | .doubleToRegister source _ => .memory source

/-- What a move puts its quantity into. -/
def target : Move → Operand
  | .registerToRegister _ target | .immediateToRegister _ target
  | .memoryToRegister _ target | .doubleToRegister _ target => .register target
  | .registerToMemory _ target | .immediateToMemory _ target => .memory target

/-- How a move is spelled, with numbers of any length. -/
def spelling (move : Move) : String :=
  instruction move.mnemonic move.source.spelling move.target.spelling

/-- A move whose numbers are not too long is written as it is spelled. -/
theorem text_of_writable (h : move.Writable) : move.text = .ok move.spelling := by
  cases move with
  | registerToRegister source target => rfl
  | immediateToRegister value target =>
    rw [text, immediate_of_short (h value List.mem_cons_self)]
    rfl
  | immediateToMemory value target =>
    obtain ⟨hvalue, htarget⟩ := List.forall_mem_cons.mp h
    rw [text, immediate_of_short hvalue, Memory.text_of_writable htarget]
    rfl
  | registerToMemory source place | memoryToRegister place target | doubleToRegister place target =>
    rw [text, Memory.text_of_writable h]
    rfl

/-- A move with a number that is too long has no text. -/
theorem text_of_not_writable (h : ¬ move.Writable) : move.text = .error .numberTooLong := by
  simp only [Writable, not_forall, Bool.not_eq_false] at h
  obtain ⟨number, hmem, hlong⟩ := h
  cases move with
  | registerToRegister source target => cases hmem
  | immediateToRegister value target =>
    obtain rfl := List.mem_singleton.mp hmem
    rw [text, immediate_of_long hlong]
    rfl
  | immediateToMemory value target =>
    rcases hvalue : Numeral.isTooLong value with _ | _
    · -- The immediate number can be written, so it is the distance that cannot.
      rcases List.mem_cons.mp hmem with rfl | hplace
      · exact absurd (hvalue.symm.trans hlong) Bool.false_ne_true
      · rw [text, immediate_of_short hvalue, Memory.text_of_long hplace hlong]
        rfl
    · rw [text, immediate_of_long hvalue]
      rfl
  | registerToMemory source place | memoryToRegister place target | doubleToRegister place target =>
    rw [text, Memory.text_of_long hmem hlong]
    rfl

theorem Legible.source (h : move.Legible) : move.source.Legible := by
  cases move <;> first | exact h | trivial

theorem Legible.target (h : move.Legible) : move.target.Legible := by
  cases move <;> first | exact h | trivial

theorem space_notMem_mnemonic (move : Move) : ' ' ∉ move.mnemonic.toList := by
  cases move <;> simp [mnemonic]

theorem instruction_inj {mnemonic mnemonic' source source' target target' : String}
    (hmnemonic : ' ' ∉ mnemonic.toList) (hmnemonic' : ' ' ∉ mnemonic'.toList)
    (hsource : ',' ∉ source.toList) (hsource' : ',' ∉ source'.toList)
    (h : instruction mnemonic source target = instruction mnemonic' source' target') :
    mnemonic = mnemonic' ∧ source = source' ∧ target = target' := by
  have hspace : " ".toList = [' '] := rfl
  have hcomma : ", ".toList = [',', ' '] := rfl
  have hlists := congrArg String.toList h
  simp only [instruction, String.toList_append, hspace, hcomma, List.append_assoc,
    List.cons_append, List.nil_append] at hlists
  obtain ⟨hmnemonics, hoperands⟩ := eq_of_append_cons_eq hmnemonic hmnemonic' hlists
  obtain ⟨hsources, htargets⟩ := eq_of_append_cons_eq hsource hsource' hoperands
  exact ⟨String.toList_injective hmnemonics, String.toList_injective hsources,
    String.toList_injective (List.cons.inj htargets).2⟩

/-- The mnemonic and the operands tell a move. -/
theorem same_iff :
    move.Same other ↔ move.mnemonic = other.mnemonic ∧ move.source.Same other.source ∧
      move.target.Same other.target := by
  constructor
  · intro h
    cases h with
    | registerToRegister _ _ => exact ⟨rfl, .register _, .register _⟩
    | immediateToRegister _ _ => exact ⟨rfl, .immediate _, .register _⟩
    | registerToMemory _ htarget => exact ⟨rfl, .register _, .memory htarget⟩
    | immediateToMemory _ htarget => exact ⟨rfl, .immediate _, .memory htarget⟩
    | memoryToRegister _ hsource | doubleToRegister _ hsource =>
      exact ⟨rfl, .memory hsource, .register _⟩
  · rintro ⟨hmnemonic, hsource, htarget⟩
    -- Operands of different kinds exclude each other, so few pairs of moves are left.
    cases move with
    | registerToRegister source target =>
      cases other <;> cases hsource <;> cases htarget
      exact .registerToRegister source target
    | immediateToRegister value target =>
      cases other <;> cases hsource <;> cases htarget
      exact .immediateToRegister value target
    | registerToMemory source target =>
      cases other <;> cases hsource <;> rcases htarget with _ | _ | htarget
      exact .registerToMemory source htarget
    | immediateToMemory value target =>
      cases other <;> cases hsource <;> rcases htarget with _ | _ | htarget
      exact .immediateToMemory value htarget
    | memoryToRegister source target =>
      cases other <;> rcases hsource with _ | _ | hsource <;> cases htarget
      · exact .memoryToRegister target hsource
      · exact absurd hmnemonic (by simp [mnemonic])
    | doubleToRegister source target =>
      cases other <;> rcases hsource with _ | _ | hsource <;> cases htarget
      · exact absurd hmnemonic (by simp [mnemonic])
      · exact .doubleToRegister target hsource

/-- Moves can be told from how they are spelled: the mnemonic ends at the first blank, and the
source at the first comma. -/
theorem spelling_eq_iff (h : move.Legible) (h' : other.Legible) :
    move.spelling = other.spelling ↔ move.Same other := by
  rw [same_iff, ← Operand.spelling_eq_iff h.source h'.source,
    ← Operand.spelling_eq_iff h.target h'.target, spelling, spelling]
  constructor
  · intro htext
    exact instruction_inj move.space_notMem_mnemonic other.space_notMem_mnemonic
      (Operand.comma_notMem_spelling h.source) (Operand.comma_notMem_spelling h'.source) htext
  · rintro ⟨hmnemonic, hsource, htarget⟩
    rw [hmnemonic, hsource, htarget]

theorem Same.decimals_eq (h : move.Same other) : move.decimals = other.decimals := by
  have hplaces {place place' : Memory} (hsame : place.Same place') :
      place.decimals = place'.decimals := by cases hsame <;> rfl
  cases h with
  | registerToRegister | immediateToRegister => rfl
  | immediateToMemory value htarget => exact congrArg (value :: ·) (hplaces htarget)
  | registerToMemory _ hplace | memoryToRegister _ hplace | doubleToRegister _ hplace =>
    exact hplaces hplace

/-- A move has a text just if its numbers are not too long. -/
theorem exists_text_iff : (∃ text, move.text = .ok text) ↔ move.Writable := by
  constructor
  · rintro ⟨text, htext⟩
    by_contra hlong
    rw [text_of_not_writable hlong] at htext
    cases htext
  · intro h
    exact ⟨_, text_of_writable h⟩

/-- A move whose immediate numbers and distances are not too long has a text, and a move with one
that is has none. Moves whose labels are identifiers have the same text just if these numbers are
not too long and the moves are of one kind and have the same operands, absolute addresses counted
modulo the number of addresses. A negative address is written as the one above it by that number. -/
theorem texts_tell_moves :
    (∀ move : Move, (move.Writable → ∃ text, move.text = .ok text) ∧
      (¬ move.Writable → move.text = .error .numberTooLong)) ∧
    (∀ move other : Move, move.Legible → other.Legible →
      ((∃ text, move.text = .ok text ∧ other.text = .ok text) ↔
        move.Writable ∧ move.Same other)) ∧
    ∀ address : Int, address < 0 →
      (Memory.absolute address).text = (Memory.absolute (address + addressCount)).text ∧
      (-addressCount ≤ address →
        (Memory.absolute address).text = .ok (hexadecimal (address + addressCount).toNat)) := by
  refine ⟨fun move => ⟨exists_text_iff.mpr, text_of_not_writable⟩, fun move other h h' => ⟨?_, ?_⟩,
    fun address hnegative => ⟨?_, fun hleast => ?_⟩⟩
  · rintro ⟨text, htext, htext'⟩
    have hwritable : move.Writable := exists_text_iff.mp ⟨text, htext⟩
    have hwritable' : other.Writable := exists_text_iff.mp ⟨text, htext'⟩
    rw [text_of_writable hwritable] at htext
    rw [text_of_writable hwritable', ← htext, Except.ok.injEq] at htext'
    exact ⟨hwritable, (spelling_eq_iff h h').mp htext'.symm⟩
  · rintro ⟨hwritable, hsame⟩
    have hwritable' : other.Writable := by
      rw [Writable, ← hsame.decimals_eq]
      exact hwritable
    refine ⟨_, text_of_writable hwritable, ?_⟩
    rw [text_of_writable hwritable', (spelling_eq_iff h h').mpr hsame]
  · exact congrArg Except.ok
      (Memory.spelling_absolute_eq_iff.mpr (Int.add_emod_right address addressCount).symm)
  · have hcount : (0 : Int) < addressCount := by decide
    have hremainder : address % addressCount = address + addressCount := by
      rw [← Int.add_emod_right, Int.emod_eq_of_lt (by omega) (by omega)]
    rw [Memory.text, hremainder]
    rfl

/-- Loads of a word and of a double from one label differ, stores at minus one and at the greatest
address do not. -/
theorem texts_tell_moves_labelled :
    let place := Memory.labelled ".LC_0" .rip
    let word := Move.memoryToRegister place .rax
    let double := Move.doubleToRegister place .rax
    let store (address : Int) := Move.registerToMemory .rax (.absolute address)
    word.Legible ∧ double.Legible ∧
      (¬ ∃ text, word.text = .ok text ∧ double.text = .ok text) ∧
      (store (-1)).Legible ∧ (store 18446744073709551615).Legible ∧
      (∃ text, (store (-1)).text = .ok text ∧ (store 18446744073709551615).text = .ok text) ∧
      (-1 : Int) < 0 ∧ (Memory.absolute (-1)).text = .ok (hexadecimal 18446744073709551615) := by
  intro place word double store
  obtain ⟨_, hmoves, haddresses⟩ := texts_tell_moves
  have hplace : IsIdentifier ".LC_0" := ⟨by simp [isIdentifierCharacter], by simp⟩
  refine ⟨hplace, hplace, fun h => ?_, trivial, trivial, ?_, by decide, ?_⟩
  · have hsame : Move.Same word double := ((hmoves word double hplace hplace).mp h).2
    exact absurd (same_iff.mp hsame).1 (by simp [mnemonic, word, double])
  · refine (hmoves (store (-1)) (store _) trivial trivial).mpr ⟨fun _ => nofun, ?_⟩
    exact .registerToMemory .rax (.absolute (by decide))
  · exact (haddresses (-1) (by decide)).2 (by decide)

/-- A move of a number with four thousand three hundred and one digits is the same as itself, but it
has no text. -/
theorem text_of_long_immediate :
    let move := Move.immediateToRegister (Numeral.tenTo 4300) .rax
    move.Legible ∧ move.Same move ∧ move.text = .error .numberTooLong ∧
      ¬ ∃ text, move.text = .ok text ∧ move.text = .ok text := by
  intro move
  have hlong : Numeral.isTooLong (Numeral.tenTo 4300) = true := by decide +kernel
  have htext : move.text = .error .numberTooLong := text_of_not_writable fun h =>
    Bool.false_ne_true ((h _ List.mem_cons_self).symm.trans hlong)
  refine ⟨trivial, .immediateToRegister _ _, htext, ?_⟩
  rintro ⟨text, hwritten, _⟩
  cases htext.symm.trans hwritten

end Move

end SmallScheme.Assembly
