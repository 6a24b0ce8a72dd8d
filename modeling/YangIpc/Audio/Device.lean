import YangIpc.Library.Run
import YangIpc.Library.Trace

/-!
# The audio device

`yangipc_audio_turn_on`, `yangipc_audio_turn_off` and `yangipc_audio_data_callback` of
`yangipc_audio_device.c`.  The command handler, the message loop and the task of the peer turn the
audio on and off, and the receivers of audio call the callback, each in its own thread.  The voice
service is outside of the repository: what its functions return are arguments.

An access to `audio_enable` and a call of the voice service are steps of their own; a handle is
read once for its test and the call behind it.

## Main definitions

* `AudioParameters`, `VoiceCfg`, `voiceCfg`: what the voice service is configured with
* `DbAudioDeviceInfo`, `AudioPoint`, `AudioState`: the record, the points of a call, the state
* `AudioState.callNext`, `AudioState.writerNext`: what a call and the callback do next
* `AudioState.step`: the transition system

## Main results

* `voiceCfg_matched`: the sizes of a configuration fit together
-/

namespace YangIpc

namespace Audio

/-! ## The configuration -/

/-- `codec_format_t`. -/
inductive CodecFormat
  | unknown
  | g711a
  | pcm
  | g711u
deriving DecidableEq, Repr

/-- `audio_parameters_t`, as far as `yangipc_audio_turn_on` looks at it: the player format is not
among it. -/
structure AudioParameters where
  aec : UInt8
  uac : UInt8
  rmtRecoderFmt : CodecFormat
  rmtRecorderSampleRate : UInt32
  rmtPlayerSampleRate : UInt32
deriving DecidableEq, Repr

/-- The law of a G711 codec. -/
inductive G711Mode
  | aLow
  | uLow
deriving DecidableEq, Repr

/-- `enc_type` and `enc_cfg`, or `dec_type` and `dec_cfg`. -/
inductive CodecCfg
  | g711 (mode : G711Mode) (bufSz outBlockSize : UInt32)
  | pcm
deriving DecidableEq, Repr

/-- `voice_cfg_t`, the fields that are set: those of the microphone and of the speaker are of the
UAC device or of the board. -/
structure VoiceCfg where
  uac : Bool
  micSampRate : UInt32
  micFrameSize : UInt32
  micOutBlockSize : UInt32
  micOutBlockNum : UInt32
  spkSampRate : UInt32
  spkFrameSize : UInt32
  /-- `fs` of the echo cancellation, if it is enabled. -/
  aec : Option UInt32
  enc : CodecCfg
  dec : CodecCfg
  readPoolSize : UInt32
  writePoolSize : UInt32
deriving DecidableEq, Repr

/-- `DB_SAMPLE_RARE_8K`, `DB_SAMPLE_RARE_16K`, or the default. -/
def sampleRate (rate : UInt32) : UInt32 :=
  if rate = 8000 then 8000 else if rate = 16000 then 16000 else 8000

/-- One frame of 20 ms. -/
def frameSize (rate : UInt32) : UInt32 := rate * 2 * 20 / 1000

/-- The configuration of the voice service; `none` if the format is not supported. -/
def voiceCfg (parameters : AudioParameters) : Option VoiceCfg :=
  let mic := sampleRate parameters.rmtRecorderSampleRate
  let spk := sampleRate parameters.rmtPlayerSampleRate
  let cfg (enc dec : CodecCfg) (readPoolSize writePoolSize : UInt32) : VoiceCfg :=
    ⟨parameters.uac = 1, mic, frameSize mic, frameSize mic, 2, spk, frameSize spk,
      if parameters.aec = 1 then some mic else none, enc, dec, readPoolSize, writePoolSize⟩
  let g711 (mode : G711Mode) : VoiceCfg :=
    cfg (.g711 mode (frameSize mic) (frameSize mic >>> 1))
      -- the decoder follows the format of the recorder, too
      (.g711 mode (frameSize spk >>> 1) (frameSize spk)) (frameSize mic >>> 1) (frameSize spk >>> 1)
  match parameters.rmtRecoderFmt with
  | .g711a => some (g711 .aLow)
  | .g711u => some (g711 .uLow)
  | .pcm => some (cfg .pcm .pcm (frameSize mic) (frameSize spk))
  | .unknown => none

/-- `max_read_size`. -/
def maxReadSize : UInt32 := 320

/-- The blocks of the microphone are those that the encoder takes, and what it makes of them is
what is read; what is written is what the decoder takes, and it makes blocks of the speaker. -/
def VoiceCfg.Matched (cfg : VoiceCfg) : Prop :=
  (match cfg.enc with
    | .g711 _ bufSz outBlockSize => bufSz = cfg.micOutBlockSize ∧ bufSz = 2 * outBlockSize ∧
        cfg.readPoolSize = outBlockSize
    | .pcm => cfg.readPoolSize = cfg.micOutBlockSize) ∧
  (match cfg.dec with
    | .g711 _ bufSz outBlockSize => cfg.writePoolSize = bufSz ∧ outBlockSize = 2 * bufSz ∧
        outBlockSize = cfg.spkFrameSize
    | .pcm => cfg.writePoolSize = cfg.spkFrameSize) ∧
  -- a block that is read fits, but for PCM at 16 kHz
  (maxReadSize < cfg.readPoolSize ↔ cfg.enc = .pcm ∧ cfg.micSampRate = 16000)

theorem sampleRate_cases (rate : UInt32) : sampleRate rate = 8000 ∨ sampleRate rate = 16000 := by
  unfold sampleRate
  split
  · exact .inl rfl
  · split
    · exact .inr rfl
    · exact .inl rfl

/-- **The sizes of a configuration fit together.** -/
theorem voiceCfg_matched {parameters : AudioParameters} {cfg : VoiceCfg}
    (h : voiceCfg parameters = some cfg) : cfg.Matched := by
  unfold voiceCfg at h
  rcases sampleRate_cases parameters.rmtRecorderSampleRate with hmic | hmic <;>
    rcases sampleRate_cases parameters.rmtPlayerSampleRate with hspk | hspk <;>
    simp only [hmic, hspk] at h <;>
    cases hfmt : parameters.rmtRecoderFmt <;>
    simp only [hfmt, Option.some.injEq, reduceCtorEq] at h <;>
    (subst h; simp [VoiceCfg.Matched, frameSize, maxReadSize]; try decide)

/-! ## The record and the calls -/

/-- What the handles are handles of. -/
inductive VoiceKind
  | voice
  | read
  | write
deriving DecidableEq, Repr

/-- A `voice_handle_t`, `voice_read_handle_t` or `voice_write_handle_t` that is not `NULL`. -/
abbrev VoiceHandle := ℕ

/-- `db_audio_device_info_t`: `handle` is `voice_handle`, `voice_read_handle` and
`voice_write_handle`. -/
structure DbAudioDeviceInfo where
  audioEnable : Bool
  handle : VoiceKind → Option VoiceHandle

/-- Where a call of `yangipc_audio_turn_on` or `yangipc_audio_turn_off` is.  `ok` is what the call
is going to return. -/
inductive AudioPoint
  /-- `audio_enable == BK_TRUE` in `yangipc_audio_turn_on` -/
  | onTest (parameters : AudioParameters)
  /-- `bk_voice_init`, `bk_voice_read_init` or `bk_voice_write_init` -/
  | init (kind : VoiceKind) (parameters : AudioParameters)
  /-- `bk_voice_start`, `bk_voice_read_start` or `bk_voice_write_start` -/
  | start (kind : VoiceKind)
  /-- `audio_enable = BK_TRUE` -/
  | setEnable
  /-- `audio_state_changed(DB_TURN_ON)` -/
  | changedOn
  /-- `audio_enable == BK_FALSE` in `yangipc_audio_turn_off` -/
  | offTest
  /-- `audio_enable = BK_FALSE` -/
  | clearEnable
  /-- `audio_state_changed(DB_TURN_OFF)` -/
  | changedOff
  /-- at the test before `bk_voice_stop`, `bk_voice_read_stop` or `bk_voice_write_stop` -/
  | stop (kind : VoiceKind) (ok : Bool)
  /-- at the test before `bk_voice_deinit`, `bk_voice_read_deinit` or `bk_voice_write_deinit` -/
  | deinit (kind : VoiceKind) (ok : Bool)
  /-- a handle is set to `NULL` -/
  | null (kind : VoiceKind) (ok : Bool)
  | returned (ok : Bool)
deriving DecidableEq, Repr

/-- What follows a step that goes well. -/
def AudioPoint.following : AudioPoint → AudioPoint
  | onTest parameters => init .voice parameters
  | init .voice parameters => init .read parameters
  | init .read parameters => init .write parameters
  | init .write _ => start .voice
  | start .voice => start .read
  | start .read => start .write
  | start .write => setEnable
  | setEnable => changedOn
  | changedOn => returned true
  | offTest => clearEnable
  | clearEnable => changedOff
  | changedOff => stop .read true
  | stop .read ok => stop .write ok
  | stop .write ok => stop .voice ok
  | stop .voice ok => deinit .read ok
  | deinit .read ok => deinit .write ok
  | deinit .write ok => deinit .voice ok
  | deinit .voice ok => null .read ok
  | null .read ok => null .write ok
  | null .write ok => null .voice ok
  | null .voice ok => returned ok
  | returned ok => returned ok

/-- The label `error` of `yangipc_audio_turn_on`. -/
def AudioPoint.error : AudioPoint := stop .read false

/-- Where a call of `yangipc_audio_data_callback` is. -/
inductive WriterPoint
  /-- `if (gl_db_audio_device_info->audio_enable)` -/
  | test
  /-- `bk_voice_write_frame_data`; the audio had been turned off `cleared` times at the test -/
  | write (cleared : ℕ)
  | returned
deriving DecidableEq, Repr

/-- The calls of the voice service, with what they return, and the others that are observed. -/
inductive AudioEvent
  /-- `bk_voice_init` is called with this configuration -/
  | configured (cfg : VoiceCfg)
  | init (kind : VoiceKind) (handle : VoiceHandle)
  | start (kind : VoiceKind) (handle : Option VoiceHandle) (ok : Bool)
  | stop (kind : VoiceKind) (handle : VoiceHandle)
  | deinit (kind : VoiceKind) (handle : VoiceHandle)
  /-- `audio_state_changed` -/
  | changed (on : Bool)
  /-- `bk_voice_write_frame_data`; `fresh` if the audio has not been turned off since the test -/
  | frame (handle : Option VoiceHandle) (fresh : Bool)
deriving DecidableEq, Repr

/-- The record, the calls made so far, and how often `audio_enable` was cleared. -/
structure AudioState where
  info : DbAudioDeviceInfo
  calls : List AudioPoint
  writers : List WriterPoint
  cleared : ℕ
  log : List AudioEvent

/-- What the voice service answers. -/
inductive AudioAnswer
  | none
  | handle (handle : Option VoiceHandle)
  | ok (ok : Bool)
deriving DecidableEq, Repr

namespace AudioState

/-- `yangipc_audio_device_init`. -/
def boot : AudioState := ⟨⟨false, fun _ => none⟩, [], [], 0, []⟩

/-- An event is observed. -/
def emit (w : AudioState) (e : AudioEvent) : AudioState := { w with log := w.log ++ [e] }

/-- A handle is stored. -/
def store (w : AudioState) (kind : VoiceKind) (handle : Option VoiceHandle) : AudioState :=
  { w with info := { w.info with handle := Function.update w.info.handle kind handle } }

/-- A call goes on. -/
def goto (w : AudioState) (i : ℕ) (p : AudioPoint) : AudioState :=
  { w with calls := w.calls.set i p }

/-- The handle that an initialisation returns is stored; whether there is one. -/
def keepHandle (w : AudioState) (kind : VoiceKind) :
    Option VoiceHandle → AudioState × Bool
  | some h => ((w.emit (.init kind h)).store kind (some h), true)
  | none => (w.store kind none, false)

/-- `bk_voice_init`, or one of its companions.  There is none for a format that is not
supported. -/
def initStep (w : AudioState) (kind : VoiceKind) (parameters : AudioParameters)
    (handle : Option VoiceHandle) : AudioState × Bool :=
  match kind with
  | .voice =>
    match voiceCfg parameters with
    | some cfg => (w.emit (.configured cfg)).keepHandle kind handle
    | none => (w, false)
  | .read | .write => w.keepHandle kind handle

/-- What a call does next. -/
def callNext (w : AudioState) (i : ℕ) (answer : AudioAnswer) : Option AudioState :=
  match w.calls[i]? with
  | none => none
  | some p =>
    match p, answer with
    | .onTest _, _ => some (w.goto i (if w.info.audioEnable then .returned false else p.following))
    | .init kind parameters, .handle handle =>
      let (w, ok) := w.initStep kind parameters handle
      some (w.goto i (if ok then p.following else .error))
    | .start kind, .ok ok =>
      let w := w.emit (.start kind (w.info.handle kind) ok)
      some (w.goto i (if ok then p.following else .error))
    | .setEnable, _ =>
      some ({ w with info := { w.info with audioEnable := true } }.goto i p.following)
    | .changedOn, _ => some ((w.emit (.changed true)).goto i p.following)
    | .offTest, _ => some (w.goto i (if w.info.audioEnable then p.following else .returned false))
    | .clearEnable, _ =>
      some ({ w with
        info := { w.info with audioEnable := false }
        cleared := w.cleared + 1 }.goto i p.following)
    | .changedOff, _ => some ((w.emit (.changed false)).goto i p.following)
    | .stop kind _, _ =>
      some (((w.info.handle kind).elim w fun h => w.emit (.stop kind h)).goto i p.following)
    | .deinit kind _, _ =>
      some (((w.info.handle kind).elim w fun h => w.emit (.deinit kind h)).goto i p.following)
    | .null kind _, _ => some ((w.store kind none).goto i p.following)
    | _, _ => none

/-- `yangipc_audio_data_callback`: what a call does next. -/
def writerNext (w : AudioState) (i : ℕ) : Option AudioState :=
  match w.writers[i]? with
  | some .test =>
    some { w with
      writers := w.writers.set i (if w.info.audioEnable then .write w.cleared else .returned) }
  | some (.write n) =>
    some { w.emit (.frame (w.info.handle .write) (n = w.cleared)) with
      writers := w.writers.set i .returned }
  | _ => none

/-- The steps: a call is made or goes on. -/
inductive Action
  | turnOn (parameters : AudioParameters)
  | turnOff
  | data
  | call (i : ℕ) (answer : AudioAnswer)
  | writer (i : ℕ)
deriving DecidableEq, Repr

/-- The state after a step, if it is possible. -/
def next (w : AudioState) : Action → Option AudioState
  | .turnOn parameters => some { w with calls := w.calls ++ [.onTest parameters] }
  | .turnOff => some { w with calls := w.calls ++ [.offTest] }
  | .data => some { w with writers := w.writers ++ [.test] }
  | .call i answer => w.callNext i answer
  | .writer i => w.writerNext i

/-- The transition system. -/
def step (w : AudioState) (a : Action) (w' : AudioState) : Prop := w.next a = some w'

end AudioState

end Audio

end YangIpc
