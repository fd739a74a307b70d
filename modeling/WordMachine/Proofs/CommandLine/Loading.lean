import WordMachine.CommandLine.Session
import WordMachine.Proofs.Configuration.Reading
import WordMachine.Proofs.Program.Image
import WordMachine.Proofs.Text.Encoding

namespace WordMachine.CommandLine

-- What the file of a configuration comes to, by its bytes. Without a file it is the default one.
inductive Configures (read : Reader) :
    Option String → Except ConfigurationError Configuration → Prop where
  | default : Configures read none (.ok .default)
  | noFile {path : String} {error : ReadError} (h : read path = .error error) :
      Configures read (some path) (.error (.unreadable path error.cause.message))
  | noText {path : String} {bytes : List UInt8} (h : read path = .ok bytes)
      (ht : ∀ text : String, text.toUTF8.data.toList ≠ bytes) :
      Configures read (some path)
        (.error (.unreadable path "stream did not contain valid UTF-8"))
  | text {path : String} {bytes : List UInt8} {text : String} (h : read path = .ok bytes)
      (ht : text.toUTF8.data.toList = bytes) :
      Configures read (some path) (Configuration.ofJson text)

-- The bytes are those of a text that gives the configuration.
def Describes (bytes : List UInt8) (configuration : Configuration) : Prop :=
  ∃ document, ∃ text : String, configuration.Writes document ∧
    Json.Spells (Json.Lexeme.object Json.Value.lexemes document) text.toList ∧
    text.toUTF8.data.toList = bytes

-- What an image file comes to, by its bytes.
inductive Loads (read : Reader) (path : String) (order : ByteOrder) :
    Except LoadError (List UInt32) → Prop where
  | notOpened {error : FileError} (h : read path = .error (.notOpened error)) :
      Loads read path order (.error (.notOpened path error))
  | notRead {error : FileError} (h : read path = .error (.notRead error)) :
      Loads read path order (.error (.notRead path error))
  | misaligned {image : List UInt8} (h : read path = .ok image) (hi : ¬ 4 ∣ image.length) :
      Loads read path order (.error (.misaligned ⟨image.length⟩))
  | words {image : List UInt8} {words : List UInt32} (h : read path = .ok image)
      (hi : words.flatMap order.bytes = image) : Loads read path order (.ok words)

theorem configures_loadConfiguration (read : Reader) (path? : Option String) :
    Configures read path? (loadConfiguration read path?) := by
  cases path? with
  | none => exact .default
  | some path =>
    simp only [loadConfiguration]
    cases hr : read path with
    | error error => exact .noFile hr
    | ok bytes =>
      simp only
      cases hd : Text.Utf8.decode? bytes with
      | none =>
        refine .noText hr ?_
        rintro text rfl
        cases hd.symm.trans (Text.Utf8.decode?_eq_toList_iff.mpr rfl)
      | some chars =>
        refine .text hr ?_
        rw [← Text.Utf8.decode?_eq_toList_iff, String.toList_ofList, hd]

theorem configures_iff {read : Reader} {path? : Option String}
    {result : Except ConfigurationError Configuration} :
    Configures read path? result ↔ loadConfiguration read path? = result := by
  constructor
  · intro h
    cases h with
    | default => rfl
    | noFile h => simp only [loadConfiguration, h]
    | @noText _ bytes h ht =>
      have hnone : Text.Utf8.decode? bytes = none := by
        cases hd : Text.Utf8.decode? bytes with
        | none => rfl
        | some chars =>
          rw [← String.toList_ofList (l := chars), Text.Utf8.decode?_eq_toList_iff] at hd
          exact absurd hd (ht _)
      simp only [loadConfiguration, h, hnone]
      rfl
    | @text _ bytes text h ht =>
      have hsome := Text.Utf8.decode?_eq_toList_iff.mpr ht
      simp only [loadConfiguration, h, hsome, String.ofList_toList]
  · rintro rfl
    exact configures_loadConfiguration read path?

theorem configures_of_describes {read : Reader} {path : String} {bytes : List UInt8}
    {configuration : Configuration} (hr : read path = .ok bytes)
    (hv : configuration.validate = .ok ()) (h : Describes bytes configuration) :
    Configures read (some path) (.ok configuration) := by
  obtain ⟨document, text, hwrites, hspells, htext⟩ := h
  have hread := Configuration.ofJson_of_writes hv hwrites hspells
  exact hread ▸ .text hr htext

-- An image is made of the bytes of its words.
theorem image_of_words {order : ByteOrder} {bytes : List UInt8} {words : List UInt32}
    (h : Program.words order bytes = .ok words) : Program.image order words = bytes := by
  refine Program.words_induction (motive := fun bytes words =>
    Program.image order words = bytes) ?_ ?_ h
  · rfl
  · intro a b c d bytes words ih
    rw [Program.image, List.flatMap_cons, ByteOrder.bytes_word, ← ih]
    rfl

theorem loads_iff {read : Reader} {path : String} {order : ByteOrder}
    {result : Except LoadError (List UInt32)} :
    Loads read path order result ↔ (loadProgram read path order).map Prod.fst = result := by
  constructor
  · intro h
    cases h with
    | notOpened h | notRead h => simp only [loadProgram, h, Except.map]
    | @misaligned image h hi =>
      have hwords : Program.words order image = .error ⟨image.length⟩ := by
        rw [Program.words_eq_error_iff]
        exact ⟨fun hmod => hi (Nat.dvd_of_mod_eq_zero hmod), rfl⟩
      simp only [loadProgram, h, hwords, Except.map]
    | @words image words h hi =>
      have hwords : Program.words order image = .ok words := hi ▸ Program.words_image order words
      simp only [loadProgram, h, hwords, Except.map]
  · rintro rfl
    simp only [loadProgram]
    cases hr : read path with
    | error error =>
      cases error with
      | notOpened error => exact .notOpened hr
      | notRead error => exact .notRead hr
    | ok image =>
      simp only
      cases hw : Program.words order image with
      | error error =>
        obtain ⟨hmod, rfl⟩ := (Program.words_eq_error_iff order image error).mp hw
        exact .misaligned hr fun hdvd => hmod (Nat.mod_eq_zero_of_dvd hdvd)
      | ok words => exact .words hr (image_of_words hw)

theorem error_of_loads {read : Reader} {path : String} {order : ByteOrder} {error : LoadError}
    (h : Loads read path order (.error error)) : loadProgram read path order = .error error := by
  have hloaded := loads_iff.mp h
  cases hl : loadProgram read path order with
  | error other =>
    rw [hl] at hloaded
    cases hloaded
    rfl
  | ok loaded =>
    rw [hl] at hloaded
    cases hloaded

theorem exists_of_loads {read : Reader} {path : String} {order : ByteOrder} {words : List UInt32}
    (h : Loads read path order (.ok words)) :
    ∃ event, loadProgram read path order = .ok (words, event) := by
  have hloaded := loads_iff.mp h
  cases hl : loadProgram read path order with
  | error other =>
    rw [hl] at hloaded
    cases hloaded
  | ok loaded =>
    rw [hl] at hloaded
    cases hloaded
    exact ⟨loaded.2, rfl⟩

end WordMachine.CommandLine
