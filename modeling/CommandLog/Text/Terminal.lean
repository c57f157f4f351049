/-!
What is left of a text when it is shown without any effect on a terminal. White space stays, other
control characters go, and so does every control sequence: from an escape character to the character
that ends a sequence of its kind.
-/

namespace CommandLog.Text.Terminal

inductive Mode where
  | outside
  | escape
  /-- Behind an escape character and marks that choose a character set. -/
  | selection
  | parameters
  /-- A text for the terminal's title, up to a bell. -/
  | title
  | device
  | string
deriving DecidableEq, Repr

def escapeCharacter : Char := '\x1b'

def isCancel (c : Char) : Bool := c = '\x18' || c = '\x1a'

def isSpace (c : Char) : Bool := c = '\t' || c = '\n' || c = '\x0c' || c = '\r'

def isControl (c : Char) : Bool := c < ' ' || c = '\x7f'

def isMark (c : Char) : Bool := ' ' ≤ c && c ≤ '/'

def isFinal (c : Char) : Bool := '@' ≤ c && c ≤ '~'

def endsString (c : Char) : Bool := (String.utf8EncodeChar c).contains 0x9C

def Mode.ofIntroducer (c : Char) : Mode :=
  if isMark c then .selection
  else if c = '[' then .parameters
  else if c = ']' then .title
  else if c = 'P' then .device
  else if c = 'X' || c = '^' || c = '_' then .string
  else if '0' ≤ c && c ≤ '~' then .outside
  else .escape

def Mode.next (mode : Mode) (c : Char) : Mode :=
  match mode with
  | .outside => .outside
  | .escape => Mode.ofIntroducer c
  | .selection => if '0' ≤ c && c ≤ '~' then .outside else .selection
  | .parameters => if isFinal c then .outside else .parameters
  | .title => if c = '\x07' then .outside else .title
  | .device => if isFinal c then .string else .device
  | .string => if endsString c then .outside else .string

/-- Whether `c` is shown. White space that breaks into a sequence is, and ends it. -/
def Mode.shows (mode : Mode) (c : Char) : Bool :=
  match mode with
  | .outside => isSpace c || !isControl c
  | .escape | .selection | .parameters => isSpace c
  | .title | .device | .string => false

def visibleFrom (mode : Mode) : List Char → List Char
  | [] => []
  | c :: text =>
      if c = escapeCharacter then visibleFrom .escape text
      else if isCancel c then visibleFrom .outside text
      else if mode.shows c then c :: visibleFrom .outside text
      else visibleFrom (mode.next c) text

def visible (text : List Char) : List Char := visibleFrom .outside text

theorem visible_eq_self {text : List Char} (plain : ∀ c ∈ text, isControl c = false) :
    visible text = text := by
  induction text with
  | nil => rfl
  | cons c text ih =>
      have shown : isControl c = false := plain c (by simp)
      have notEscape : c ≠ escapeCharacter := by
        rintro rfl
        simp [isControl, escapeCharacter] at shown
      have notCancel : isCancel c = false := by
        by_cases cancels : isCancel c = true
        · simp only [isCancel, Bool.or_eq_true, decide_eq_true_eq] at cancels
          rcases cancels with rfl | rfl <;> simp [isControl] at shown
        · simpa using cancels
      have rest := ih fun c member => plain c (by simp [member])
      simpa [visible, visibleFrom, notEscape, notCancel, Mode.shows, shown] using rest

end CommandLog.Text.Terminal
