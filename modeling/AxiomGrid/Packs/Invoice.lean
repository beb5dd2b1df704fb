import AxiomGrid.Lib.RegexGroups
import AxiomGrid.Lib.Unanimous
import AxiomGrid.Packs.Generic

/-!
# Invoice pack

`InvoicePack.extract` of `packs/invoice/pack.py`. Each field has its candidates, which the lines of all
chunks give one by one, and is emitted if they have one value in common. The patterns are transcribed one
for one.
-/

namespace AxiomGrid.Packs.Invoice

open Pipeline Regex Regex.Pattern

/-- The parts of Python that the pack rests on. -/
structure Env where
  u : UnicodeData
  /-- `str.isalpha` on one character. -/
  isAlpha : Char → Bool
  /-- `float` of a text, by its `repr`. -/
  readFloat : Str → FloatRepr
  /-- The id of a new extraction of a field. -/
  newId : Str → Str

variable (env : Env)

/-! ### Lines -/

/-- A stripped line, and the chunk that it is of. -/
abbrev Record := Str × Chunk

def isBorder (c : Char) : Bool := c == ' ' || c == '\t' || c == '│' || c == '|'

/-- `line.strip(" \t│|")`. -/
def stripBorder (line : Str) : Str :=
  ((line.dropWhile isBorder).reverse.dropWhile isBorder).reverse

/-- The lines of a chunk that are not empty, stripped. -/
def chunkLines (chunk : Chunk) : List Str :=
  ((Str.splitLines chunk.text).map stripBorder).filter (· ≠ [])

def records (chunks : List Chunk) : List Record :=
  chunks.flatMap fun chunk => (chunkLines chunk).map (·, chunk)

/-! ### Pieces of patterns -/

def isBlank (c : Char) : Bool := c == ' ' || c == '\t'

/-- `[ \t]*`. -/
def blanks : Pattern := .many true isBlank

/-- `[ \t]+`. -/
def blanks1 : Pattern := .many1 true isBlank

def isColon (c : Char) : Bool := c == ':'

/-- A word under `IGNORECASE`. -/
def word (w : String) : Pattern := wordIgnoreCase env.u w

/-- Words with `[ \t]+` between them. -/
def phrase (ws : List String) : Pattern := .concat ((ws.map (word env)).intersperse blanks1)

/-- `\w`. -/
def isWord (c : Char) : Bool := env.u.isAlnum c || c == '_'

/-- `\d`. -/
def isDigit (c : Char) : Bool := isDecimal env.u c

/-- `[a-zA-Z]` without `IGNORECASE`. -/
def isLetter (c : Char) : Bool := c.isAlpha

/-- `[A-Za-z0-9]` under `IGNORECASE`. -/
def isCode (c : Char) : Bool := letterIgnoreCase env.u c || c.isDigit

/-! ### The kind of document -/

def numberLabel : Pattern :=
  .oneOf [
    .concat [word env "invoice", blanks1,
      .oneOf [word env "number", .seq (word env "no") (.opt (.char (· == '.'))), word env "nr"]],
    .concat [word env "invoice", blanks, .char (· == '#')],
    .concat [word env "inv", blanks1,
      .oneOf [word env "number", .seq (word env "no") (.opt (.char (· == '.')))]],
    word env "fakturanr",
    phrase env ["faktura", "nr"],
    word env "rechnungsnr",
    .concat [phrase env ["receipt", "no"], .opt (.char (· == '.'))],
    .concat [word env "receipt", blanks, .char (· == '#')]]

def qualifier : Pattern :=
  .oneOf [word env "draft", word env "revised", word env "provisional",
    .seq (word env "estimate") (.opt (.char (ignoreCase env.u 'd'))), word env "proposed",
    word env "preliminary", word env "unapproved"]

def invoiceHeading : Pattern := .seq (.opt (.seq (word env "tax") blanks1)) (word env "invoice")

def qualifiedHeader : Pattern :=
  .alt (.concat [qualifier env, blanks1, invoiceHeading env])
    (.seq (invoiceHeading env) (.oneOf [
      .concat [blanks1, qualifier env],
      .concat [blanks, .char (· == '('), blanks, qualifier env, blanks, .char (· == ')')],
      .concat [blanks, .char (fun c => c == '-' || c == ':'), blanks, qualifier env]]))

def statusLine : Pattern :=
  .alt (qualifier env)
    (.concat [.opt (.seq (.alt (word env "invoice") (word env "document")) blanks1),
      word env "status", blanks, .char isColon, blanks, qualifier env])

def header : Pattern :=
  .oneOf [
    .seq (invoiceHeading env) (.opt (.concat [blanks, .char isColon, blanks, .many1 true isInLine])),
    .seq (word env "faktura") (.opt (.concat [blanks, .char (· == '/'), blanks, word env "invoice"])),
    word env "rechnung"]

def isNonfinal (line : Str) : Bool :=
  isFullmatch (qualifiedHeader env) line || isFullmatch (statusLine env) line

def isHeading (line : Str) : Bool :=
  isFullmatch (header env) line || isFullmatch (qualifiedHeader env) line

def hasContext (line : Str) : Bool :=
  isHeading env line ||
    (matchStart (.seq (numberLabel env) (.alt (.seq blanks (.char isColon)) blanks1)) line).isSome

/-! ### Candidates -/

structure Candidate where
  value : Str
  span : Str
  chunk : Chunk

/-- The candidates of all lines, where each line gives values with their spans. -/
def scan (read : Str → List (Str × Str)) (records : List Record) : List Candidate :=
  records.flatMap fun record =>
    (read record.1).map fun found => ⟨found.1, found.2, record.2⟩

/-- `match[1]` of `re.fullmatch(r, line)`. -/
def captured (r : Grouped) (line : Str) : Option Str := (fullmatch r line).bind (·.group? 1)

/-- A group of a match, as its own value. -/
def itself (found : Option Str) : List (Str × Str) := (found.map fun value => (value, value)).toList

/-! ### Vendors -/

def vendorCandidate (value : Str) : Bool :=
  decide (value ≠ []) && decide (value.length ≤ 200) && value.any env.isAlpha &&
    !value.any isColon && !isFullmatch (qualifiedHeader env) value &&
    !isFullmatch (statusLine env) value &&
    (matchStart (.seq (.oneOf [word env "invoice", phrase env ["tax", "invoice"], word env "date",
      word env "due", phrase env ["bill", "to"], word env "customer", word env "currency",
      word env "total", word env "description", word env "no"]) (.boundary (isWord env))) value).isNone

/-- `[=\-*~_─┌┐└┘┬┴┼]+`. -/
def isRule (value : Str) : Bool :=
  decide (value ≠ []) && value.all fun c => decide (c ∈ "=-*~_─┌┐└┘┬┴┼".toList)

def explicitVendor : Grouped :=
  .concat [
    .plain (.oneOf [invoiceHeading env, word env "from", word env "vendor", word env "supplier"]),
    .plain blanks, .plain (.char isColon), .plain blanks, .group 1 (.plain (.many1 true isInLine))]

/-- The line under a heading. -/
def vendorBelow (line : Str) : List Record → List Candidate
  | [] => []
  | (value, source) :: _ =>
    if isHeading env line && vendorCandidate env value && !isRule value then [⟨value, value, source⟩]
    else []

/-- The vendor of a line, with the lines that follow it. -/
def vendorAt : List Record → List Candidate
  | [] => []
  | (line, chunk) :: rest =>
    match captured (explicitVendor env) line with
    | some value =>
      if vendorCandidate env value then [⟨value, value, chunk⟩] else vendorBelow env line rest
    | none => vendorBelow env line rest

/-- `\b(?:corp(?:oration)?|llc|…|ab)\b`. -/
def businessWord : Pattern :=
  .concat [.boundary (isWord env),
    .oneOf (.seq (word env "corp") (.opt (word env "oration")) ::
      ["llc", "inc", "ltd", "limited", "company", "solutions", "services", "industries", "studio",
        "works", "ab"].map (word env)),
    .boundary (isWord env)]

/-- A business name above the invoice. -/
def preamble (records : List Record) : List Candidate :=
  match (records.take 8).find? fun record => !isRule record.1 with
  | some (value, chunk) =>
    if vendorCandidate env value && (search (businessWord env) value).isSome then
      [⟨value, value, chunk⟩]
    else []
  | none => []

def vendors (records : List Record) : List Candidate :=
  match (records.tails.take 12).flatMap (vendorAt env) with
  | [] => preamble env records
  | found => found

/-! ### Numbers -/

/-- A letter or digit, and then letters, digits, slashes and hyphens. -/
def identifier : Grouped :=
  .group 1 (.plain (.seq (.char (isCode env))
    (.many true fun c => isCode env c || c == '/' || c == '-')))

def labelledNumber : Grouped :=
  .concat [.plain (numberLabel env), .plain (.alt (.concat [blanks, .char isColon, blanks]) blanks1),
    identifier env]

/-- A number under a heading. -/
def shortNumber : Grouped :=
  .concat [.plain (.alt (.seq (word env "no") (.opt (.char (· == '.')))) (word env "number")),
    .plain blanks, .plain (.opt (.char isColon)), .plain blanks1, identifier env]

/-- The number of a line; `headed` says that some line is a heading. -/
def readNumber (headed : Bool) (line : Str) : List (Str × Str) :=
  match fullmatch (labelledNumber env) line with
  | some m => itself (m.group? 1)
  | none => if headed then itself (captured (shortNumber env) line) else []

/-! ### Dates -/

def dateValue : Pattern :=
  let digits (n : ℕ) : Pattern := .times n (.char (isDigit env))
  let letters : Pattern := .many1 true (letterIgnoreCase env.u)
  let dash : Pattern := .char fun c => c == '-' || c == '/'
  .oneOf [
    .concat [digits 4, dash, digits 2, dash, digits 2],
    .concat [.between 1 2 (isDigit env), blanks1, letters, blanks1, digits 4],
    .concat [letters, blanks1, .between 1 2 (isDigit env), .opt (.char (· == ',')), blanks1, digits 4],
    .concat [digits 2, .char (· == '/'), digits 2, .char (· == '/'), digits 4]]

def invoiceDateLabel : Pattern :=
  .oneOf [phrase env ["invoice", "date"], word env "date", word env "issued", word env "billed",
    word env "fakturadatum", word env "datum", word env "rechnungsdatum"]

def dueDateLabel : Pattern :=
  .oneOf [phrase env ["due", "date"], word env "due", phrase env ["payment", "due"],
    word env "förfallodatum", word env "förfallo", word env "fällig", phrase env ["zahlbar", "bis"]]

/-- The text of a date behind its label. -/
def rawDate (label : Pattern) (line : Str) : Option Str :=
  captured (.concat [.plain label, .plain blanks, .plain (.opt (.char isColon)), .plain blanks,
    .group 1 (.plain (dateValue env))]) line

def months : List (String × ℕ) :=
  [("january", 1), ("february", 2), ("march", 3), ("april", 4), ("may", 5), ("june", 6), ("july", 7),
    ("august", 8), ("september", 9), ("october", 10), ("november", 11), ("december", 12), ("jan", 1),
    ("feb", 2), ("mar", 3), ("apr", 4), ("jun", 6), ("jul", 7), ("aug", 8), ("sep", 9), ("oct", 10),
    ("nov", 11), ("dec", 12)]

/-- `months.get(name.lower())`, for a name of ASCII letters. -/
def month? (name : Str) : Option ℕ := months.lookup (String.ofList (name.map Char.toLower))

def isLeap (year : ℕ) : Bool := year % 4 == 0 && (year % 100 != 0 || year % 400 == 0)

def daysIn (year month : ℕ) : ℕ :=
  if month = 2 then (if isLeap year then 29 else 28)
  else if month ∈ [4, 6, 9, 11] then 30
  else 31

/-- A number with zeros in front of it. -/
def padded (width n : ℕ) : Str :=
  let digits := (toString n).toList
  List.replicate (width - digits.length) '0' ++ digits

/-- `date(year, month, day).isoformat()`; `none` is the `ValueError`. -/
def isoDate (year month day : ℕ) : Option Str :=
  if (1 ≤ year ∧ year ≤ 9999) ∧ (1 ≤ month ∧ month ≤ 12) ∧ 1 ≤ day ∧ day ≤ daysIn year month then
    some (padded 4 year ++ '-' :: padded 2 month ++ '-' :: padded 2 day)
  else none

/-- The number of ASCII digits. -/
def asciiInt (digits : Str) : ℕ := digits.foldl (fun n c => 10 * n + (c.toNat - '0'.toNat)) 0

/-- `[0-9]{n}`. -/
def ascii (n : ℕ) : Grouped := .plain (.times n (.char Char.isDigit))

/-- Year, month and day, with the same hyphen or slash twice. -/
def yearFirst : Grouped :=
  .concat [.group 1 (ascii 4), .group 2 (.plain (.char fun c => c == '-' || c == '/')),
    .group 3 (ascii 2), .again 2, .group 4 (ascii 2)]

/-- `([0-9]{1,2})[ \t]+([A-Za-z]+)[ \t]+([0-9]{4})`. -/
def dayFirst : Grouped :=
  .concat [.group 1 (.plain (.between 1 2 Char.isDigit)), .plain blanks1,
    .group 2 (.plain (.many1 true isLetter)), .plain blanks1, .group 3 (ascii 4)]

/-- `([A-Za-z]+)[ \t]+([0-9]{1,2}),?[ \t]+([0-9]{4})`. -/
def monthFirst : Grouped :=
  .concat [.group 1 (.plain (.many1 true isLetter)), .plain blanks1,
    .group 2 (.plain (.between 1 2 Char.isDigit)), .plain (.opt (.char (· == ','))), .plain blanks1,
    .group 3 (ascii 4)]

/-- `([0-9]{2})/([0-9]{2})/([0-9]{4})`. -/
def slashed : Grouped :=
  .concat [.group 1 (ascii 2), .plain (.char (· == '/')), .group 2 (ascii 2),
    .plain (.char (· == '/')), .group 3 (ascii 4)]

/-- `_parse_date`. -/
def parseDate (raw : Str) : Option Str :=
  let text (m : Cursor) (n : ℕ) : Str := (m.group? n).getD []
  match fullmatch yearFirst raw with
  | some m => isoDate (asciiInt (text m 1)) (asciiInt (text m 3)) (asciiInt (text m 4))
  | none =>
    match fullmatch dayFirst raw with
    | some m =>
      (month? (text m 2)).bind fun month =>
        isoDate (asciiInt (text m 3)) month (asciiInt (text m 1))
    | none =>
      match fullmatch monthFirst raw with
      | some m =>
        (month? (text m 1)).bind fun month =>
          isoDate (asciiInt (text m 3)) month (asciiInt (text m 2))
      | none =>
        -- the day comes first only where it cannot be a month
        match fullmatch slashed raw with
        | some m =>
          if 12 < asciiInt (text m 1) then
            isoDate (asciiInt (text m 3)) (asciiInt (text m 2)) (asciiInt (text m 1))
          else none
        | none => none

def readDate (label : Pattern) (line : Str) : List (Str × Str) :=
  match rawDate env label line with
  | some raw => ((parseDate raw).map fun parsed => (parsed, raw)).toList
  | none => []

/-- The line has the label of a date, and no date that can be read. -/
def isInvalidDate (label : Pattern) (line : Str) : Bool :=
  (rawDate env label line).any fun raw => (parseDate raw).isNone

/-! ### Currencies -/

def supportedCodes : List Str :=
  ["USD", "EUR", "GBP", "SGD", "AUD", "CAD", "JPY", "CNY", "INR", "SEK", "NOK", "DKK", "CHF", "NZD",
    "HKD", "ZAR", "BRL", "MXN"].map String.toList

/-- `str.upper` on a character of `[A-Za-z]` under `IGNORECASE`. -/
def upperLetter (c : Char) : Char := if c = 'ı' then 'I' else if c = 'ſ' then 'S' else c.toUpper

def labelledCurrency : Grouped :=
  .concat [
    .plain (.oneOf [phrase env ["all", "amounts", "in"], word env "currency", word env "valuta",
      word env "währung"]),
    .plain blanks, .plain (.opt (.char isColon)), .plain blanks,
    .group 1 (.plain (.times 3 (.char (letterIgnoreCase env.u))))]

/-- `\(([A-Z]{3})\)`. -/
def codeInParens : Pattern :=
  .concat [.char (· == '('), .capture (.times 3 (.char Char.isUpper)), .char (· == ')')]

/-- The codes of a line: behind a label, and in parentheses. -/
def readCodes (line : Str) : List (Str × Str) :=
  let labelled := (captured (labelledCurrency env) line).toList.map fun code =>
    (code.map upperLetter, code)
  let parenthesized := ((matchesFrom codeInParens line.length [] line).filterMap Match.group).map
    fun code => (code, code)
  (labelled ++ parenthesized).filter fun found => found.1 ∈ supportedCodes

def readSymbols (line : Str) : List (Str × Str) :=
  [('€', "EUR"), ('£', "GBP")].filterMap fun entry =>
    if entry.1 ∈ line then some (entry.2.toList, [entry.1]) else none

/-! ### Amounts -/

/-- A number with two decimal places, perhaps behind a sign. -/
def amount : Grouped :=
  let digit : Pattern := .char (isDigit env)
  .concat [
    .plain (.opt (.seq (.char fun c => decide (c ∈ "$€£¥".toList)) blanks)),
    .group 1 (.concat [
      .alt (.seq (.plain (.between 1 3 (isDigit env)))
          (.plus (.plain (.seq (.char (· == ',')) (.times 3 digit)))))
        (.plain (.many1 true (isDigit env))),
      .plain (.seq (.char (· == '.')) (.times 2 digit))])]

/-- An amount without its commas, with the text of it. -/
def readAmount (found : Option Str) : List (Str × Str) :=
  (found.map fun text => (text.filter (· ≠ ','), text)).toList

def totalLabel : Pattern :=
  let letterO : Pattern := .char fun c => c == '0' || ignoreCase env.u 'o' c
  .oneOf (
    [["total", "amount", "due"], ["total", "due"], ["grand", "total"], ["amount", "due"],
      ["amount", "payable"], ["total", "payable"], ["balance", "due"], ["totalt", "att", "betala"],
      ["belopp", "att", "betala"], ["gesamtbetrag"], ["total", "amount"], ["total"]].map (phrase env) ++
    [.concat [word env "t", letterO, word env "tal", blanks1, word env "am", letterO, word env "unt",
      blanks1, word env "due"]])

def totalLine : Grouped :=
  .concat [.plain (.opt (.seq (qualifier env) blanks1)), .plain (totalLabel env), .plain blanks,
    .plain (.opt (.char isColon)), .plain blanks, amount env, .group 2 (.plain (.many true isInLine))]

def unsafePredicate : Pattern :=
  .oneOf [qualifier env,
    .concat [word env "not", blanks1, .alt (word env "approved") (word env "final")],
    .concat [word env "neither", blanks1,
      .alt (phrase env ["final", "nor", "approved"]) (phrase env ["approved", "nor", "final"])]]

def totalWarning : Grouped :=
  .concat [
    .plain (.opt (.seq (.oneOf [word env "this", word env "the", word env "both"]) blanks1)),
    .plain (.alt (.seq (word env "total") (.opt (word env "s")))
      (.concat [word env "amount", .opt (word env "s"),
        .opt (.seq blanks1 (word env "payable"))])),
    .plain (.alt (.concat [blanks1, .alt (word env "is") (word env "are"), blanks1])
      (.concat [.opt (.seq blanks1 (word env "status")), blanks, .char isColon, blanks])),
    .plain (unsafePredicate env),
    .star true (.plain (.concat [blanks1, word env "and", blanks1, unsafePredicate env])),
    .plain (.opt (.concat [.char (· == ';'), blanks, phrase env ["do", "not", "pay"]])),
    .plain (.opt (.char fun c => c == '.' || c == '!'))]

def readTotal (line : Str) : List (Str × Str) := readAmount (captured (totalLine env) line)

/-- The line makes every total unsafe. -/
def isUnsafeTotal (line : Str) : Bool :=
  ((fullmatch (totalLine env) line).any fun m =>
    (matchStart (.seq (qualifier env) (.boundary (isWord env))) line).isSome ||
      decide (Str.strip ((m.group? 2).getD []) ≠ [])) ||
    isFullmatch (totalWarning env) line

def taxLine : Grouped :=
  .concat [
    .plain (.oneOf [phrase env ["sales", "tax"], word env "tax", word env "vat", word env "gst",
      word env "moms", word env "ust"]),
    .plain blanks,
    .plain (.opt (.concat [.char (· == '('),
      .many true (fun c => !decide (c ∈ ['(', ')', '\r', '\n'])), .char (· == ')')])),
    .plain blanks, .plain (.opt (.char isColon)), .plain blanks, amount env]

def readTax (line : Str) : List (Str × Str) := readAmount (captured (taxLine env) line)

/-! ### Terms -/

/-- `[0-9]+`. -/
def asciiDigits : Pattern := .many1 true Char.isDigit

def genericTerms : Pattern :=
  .oneOf [
    .concat [word env "net", blanks, asciiDigits],
    .concat [word env "due", blanks1, .alt (word env "on") (word env "upon"), blanks1,
      word env "receipt"],
    phrase env ["due", "immediately", "upon", "receipt"],
    word env "immediate",
    phrase env ["immediately", "upon", "receipt"],
    .concat [asciiDigits, .char (· == '/'), asciiDigits, blanks1, word env "net", blanks, asciiDigits],
    .concat [word env "within", blanks1, asciiDigits, blanks1, word env "days"],
    .concat [asciiDigits, blanks1, .alt (word env "dagar") (word env "tage")]]

/-- The text behind one of the labels and a colon. -/
def behind (labels : List Pattern) (line : Str) : Option Str :=
  captured (.concat [.plain (.oneOf labels), .plain blanks, .plain (.char isColon), .plain blanks,
    .group 1 (.plain (.many1 true isInLine))]) line

def dueOnReceipt : Grouped :=
  .group 1 (.plain (.concat [.opt (.seq (word env "payment") blanks1), word env "due", blanks1,
    .opt (.seq (word env "immediately") blanks1), .opt (.seq (word env "upon") blanks1),
    word env "receipt"]))

def readTerms (line : Str) : List (Str × Str) :=
  match behind [phrase env ["payment", "terms"], word env "terms", word env "betalningsvillkor",
      word env "zahlungsbedingungen"] line with
  | some terms => [(terms, terms)]
  | none =>
    match behind [word env "payment", word env "betalning", word env "zahlung"] line with
    | some terms => if isFullmatch (genericTerms env) terms then [(terms, terms)] else []
    | none =>
      (captured (dueOnReceipt env) line).toList.map fun text =>
        ("Due on Receipt".toList, text)

/-! ### Line items -/

structure LineItem where
  description : Str
  quantity : ℕ
  unitPrice : FloatRepr
  total : FloatRepr

def isSign (c : Char) : Bool := c == '$' || c == '€' || c == '£'

def isDot (c : Char) : Bool := c == '.'

/-- `\.\d{2}`. -/
def cents : Pattern := .seq (.char isDot) (.times 2 (.char (isDigit env)))

def spaces : Pattern := .many true Str.isSpace

def spaces1 : Pattern := .many1 true Str.isSpace

/-- Description, quantity, price and total in the columns of a table. -/
def tableItem : Grouped :=
  let price : Pattern := .concat [.opt (.char fun c => isSign c || c == '¥'), spaces,
    .many1 true (fun c => isDigit env c || c == ','), cents env]
  .concat [
    .group 1 (.plain (.atLeast 5 fun c =>
      isLetter c || Str.isSpace c || c == '(' || c == ')' || c == '&' || c == '-')),
    .plain spaces1, .group 2 (.plain (.many1 true (isDigit env))), .plain spaces1,
    .group 3 (.plain price), .plain spaces1, .group 4 (.plain price)]

/-- A hyphen or a bullet, and a description, as short as it can be. -/
def itemStart : List Grouped :=
  [.plain .start, .plain (.char fun c => c == '-' || c == '•'), .plain spaces,
    .group 1 (.plain (.many1 false isInLine)), .plain spaces1]

/-- A digit, digits and commas, and the cents. -/
def itemTotal : Pattern :=
  .concat [.char (isDigit env), .many true (fun c => isDigit env c || c == ','), cents env]

/-- `- description (qty hrs @ $rate/hr) $total`. -/
def hourlyItem : Grouped :=
  .concat (itemStart ++ [
    .plain (.char (· == '(')), .group 2 (.plain (.many1 true (isDigit env))), .plain spaces1,
    .plain (.many1 true (isWord env)), .plain spaces1, .plain (.char (· == '@')), .plain spaces,
    .plain (.opt (.char isSign)),
    .group 3 (.plain (.seq (.many1 true (isDigit env))
      (.opt (.seq (.char isDot) (.many1 true (isDigit env)))))),
    .plain spaces, .plain (.opt (.char (· == '/'))), .plain (.many true (isWord env)),
    .plain (.char (· == ')')), .plain spaces1, .plain (.opt (.char isSign)),
    .group 4 (.plain (itemTotal env))])

/-- `- description $total`. -/
def bulletItem : Grouped :=
  .concat (itemStart ++ [.plain (.opt (.char isSign)), .group 2 (.plain (itemTotal env)),
    .plain spaces, .plain .stop])

/-- `int` of a text of digits, which may have 4300 of them. -/
def int (digits : Str) : Except String ℕ :=
  if 4300 < digits.length then .error "Exceeds the limit (4300 digits) for integer string conversion"
  else .ok (digits.foldl (fun n c => 10 * n + (env.u.decimal c).getD 0) 0)

/-- The float of the digits and dots of a text. -/
def amountOf (text : Str) : FloatRepr :=
  env.readFloat (text.filter fun c => isDigit env c || isDot c)

/-- The item of a line, in the first of the three formats that matches. -/
def lineItem (line : Str) : Except String (Option LineItem) :=
  let text (m : Cursor) (n : ℕ) : Str := (m.group? n).getD []
  match searchGroups (tableItem env) line with
  | some m =>
    (int env (text m 2)).map fun quantity =>
      some ⟨Str.strip (text m 1), quantity, amountOf env (text m 3), amountOf env (text m 4)⟩
  | none =>
    match matchGroups (hourlyItem env) line with
    | some m =>
      (int env (text m 2)).map fun quantity =>
        some ⟨Str.strip (text m 1), quantity, env.readFloat (text m 3), amountOf env (text m 4)⟩
    | none =>
      .ok ((matchGroups (bulletItem env) line).map fun m =>
        ⟨Str.strip (text m 1), 1, amountOf env (text m 2), amountOf env (text m 2)⟩)

/-- The items of all lines, with their chunks. -/
def lineItems (chunks : List Chunk) : Except String (List (LineItem × Chunk)) :=
  ((chunks.flatMap fun chunk => (Str.splitLines chunk.text).map (Str.strip ·, chunk)).mapM
    fun record => (lineItem env record.1).map (Option.map (·, record.2))).map (List.filterMap id)

def LineItem.json (item : LineItem) : Json :=
  .obj [("description", .str (String.ofList item.description)), ("quantity", .int item.quantity),
    ("unit_price", .float item.unitPrice), ("total", .float item.total)]

/-! ### Extraction -/

structure InvoicePack where
  packId : Str := "invoice-v1".toList

variable (self : InvoicePack)

def InvoicePack.extraction (fieldName : String) (value sourceSpan : Str) (confidence : ℚ)
    (chunkId : Str) : Extraction where
  extId := env.newId fieldName.toList
  packId := self.packId
  fieldName := fieldName.toList
  value := value
  sourceSpan := sourceSpan
  confidence := .fin confidence
  chunkId := chunkId

/-- `emit`: conflicting values are not resolved. -/
def InvoicePack.emit (fieldName : String) (confidence : ℚ) (candidates : List Candidate) :
    List Extraction :=
  (Unanimous.pick Candidate.value candidates).toList.map fun candidate =>
    self.extraction env fieldName candidate.value candidate.span confidence candidate.chunk.chunkId

def InvoicePack.extractNumber (records : List Record) : List Extraction :=
  let headed := records.any fun record => isHeading env record.1
  self.emit env "invoice_number" (95 / 100) (scan (readNumber env headed) records)

/-- A date that cannot be read leaves its field without a value. -/
def InvoicePack.extractDate (fieldName : String) (label : Pattern) (records : List Record) :
    List Extraction :=
  if records.any fun record => isInvalidDate env label record.1 then []
  else self.emit env fieldName (9 / 10) (scan (readDate env label) records)

def InvoicePack.extractCurrency (records : List Record) : List Extraction :=
  self.emit env "currency" (9 / 10) (scan (readCodes env) records ++ scan readSymbols records)

def InvoicePack.extractTotal (records : List Record) : List Extraction :=
  if records.any fun record => isNonfinal env record.1 || isUnsafeTotal env record.1 then []
  else self.emit env "total_amount" (95 / 100) (scan (readTotal env) records)

def InvoicePack.extractLineItems (items : List (LineItem × Chunk)) : List Extraction :=
  match items with
  | [] => []
  | (item, chunk) :: _ =>
    [self.extraction env "line_items"
      (Json.dumpsWith .spaced (.arr (items.map fun entry => entry.1.json))).toList item.description
      (8 / 10) chunk.chunkId]

/-- `InvoicePack.extract`. -/
def InvoicePack.extract (chunks : List Chunk) : Except String (List Extraction) :=
  let records := records chunks
  if records.any fun record => hasContext env record.1 then
    (lineItems env chunks).map fun items =>
      self.emit env "vendor_name" (9 / 10) (vendors env records) ++
        self.extractNumber env records ++
        self.extractDate env "invoice_date" (invoiceDateLabel env) records ++
        self.extractDate env "due_date" (dueDateLabel env) records ++
        self.extractCurrency env records ++
        self.extractTotal env records ++
        self.emit env "tax_amount" (85 / 100) (scan (readTax env) records) ++
        self.emit env "payment_terms" (85 / 100) (scan (readTerms env) records) ++
        self.extractLineItems env items
  else .ok []

end AxiomGrid.Packs.Invoice
