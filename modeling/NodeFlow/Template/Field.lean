import NodeFlow.Json.Display
import NodeFlow.Json.Access
import NodeFlow.Text.CaseMap
/-!
# Template fields and placeholders

A template exposes semantic fields (the prompt text, the image size, the model
names) through `{{placeholder}}` literals written into node inputs. A field is
named by its key; the placeholder written for it is usually the key itself, but
the prompt texts, the frame rate and the input image have placeholders of their
own (`placeholderForKey`), and the high- and low-noise model placeholders land
on the one input key they share (`keyForPlaceholder`).

Each field has a display name and a description: a known field has fixed ones,
any other key is shown with its first character in upper case and described as
a required field.
-/

namespace NodeFlow

open Json

namespace Template

/-- The node input key each special placeholder lands on. -/
def placeholderKeys : List (String × String) :=
  [("positive_prompt", "positive_text"), ("negative_prompt", "negative_text"),
    ("highnoise_unet_name", "unet_name"), ("lownoise_unet_name", "unet_name"),
    ("highnoise_lora_name", "lora_name"), ("lownoise_lora_name", "lora_name"),
    ("frame_rate", "fps"), ("image_filename", "image")]

/-- The placeholder written for each field key that has one of its own. -/
def keyPlaceholders : List (String × String) :=
  [("positive_text", "positive_prompt"), ("negative_text", "negative_prompt"),
    ("fps", "frame_rate"), ("image", "image_filename")]

/-- The input key a placeholder lands on. -/
def keyForPlaceholder (placeholder : String) : String :=
  (placeholderKeys.lookup placeholder).getD placeholder

/-- The placeholder name written for a field key. -/
def placeholderForKey (key : String) : String :=
  (keyPlaceholders.lookup key).getD key

/-- The literal written into an input mapped to a field: the field's
placeholder between double braces. A key that is not text stands for itself. -/
def placeholderLiteral (key : Value) : String :=
  let name := match key with
    | .str k => placeholderForKey k
    | v => v.display
  "\x7b\x7b" ++ name ++ "\x7d\x7d"

/-- The fields found by following conditioning edges rather than input names. -/
def tracedKeys : List String := ["positive_text", "negative_text"]

/-- Further input names a field may appear under. -/
def inputAliases (key : String) : List String :=
  if key == "fps" then ["frame_rate"] else []

/-- The input names under which a field appears on a node. -/
def inputNames (key : String) : List String := keyForPlaceholder key :: inputAliases key

/-- Display name and description of the known fields. -/
def knownFields : List (String × String × String) :=
  [("positive_text", "Positive Prompt", "The text prompt for generation"),
    ("negative_text", "Negative Prompt", "Text describing what to avoid in generation"),
    ("ckpt_name", "Checkpoint", "The checkpoint model to use"),
    ("unet_name", "UNET Model", "The diffusion model to use"),
    ("highnoise_unet_name", "High Noise UNET", "Diffusion model for the high-noise pass"),
    ("lownoise_unet_name", "Low Noise UNET", "Diffusion model for the low-noise pass"),
    ("highnoise_lora_name", "High Noise LoRA", "LoRA applied on the high-noise pass"),
    ("lownoise_lora_name", "Low Noise LoRA", "LoRA applied on the low-noise pass"),
    ("vae_name", "VAE", "The VAE encoder/decoder"),
    ("clip_name", "CLIP", "The CLIP text encoder"),
    ("clip_name1", "CLIP 1 (T5)", "First CLIP text encoder (T5-XXL for Flux)"),
    ("clip_name2", "CLIP 2 (L)", "Second CLIP text encoder (L for Flux)"),
    ("width", "Width", "Output image width"),
    ("height", "Height", "Output image height"),
    ("steps", "Steps", "Number of sampling steps"),
    ("cfg", "CFG Scale", "Classifier-free guidance scale"),
    ("sampler_name", "Sampler", "Sampling algorithm"),
    ("scheduler", "Scheduler", "Noise scheduling method"),
    ("megapixels", "Megapixels", "Target size in megapixels"),
    ("lora_name", "LoRA", "LoRA adapter model"),
    ("length", "Length", "Video length in frames"),
    ("fps", "Frame Rate", "Video frames per second"),
    ("image", "Input Image", "Source image for generation")]

/-- The name a field is shown under. -/
def displayName (key : String) : String :=
  match knownFields.lookup key with
  | some (name, _) => name
  | none => match Text.characters key with
    | [] => ""
    | c :: rest => Text.toUpper c ++ String.join rest

/-- The key of a field given as a value: only a text is one. Another value
that can be a key is no known field and has no first letter to show; one that
cannot be a key cannot be looked up. -/
def fieldKey : Value → Outcome String
  | .str k => .ok k
  | v => if v.hashable then .error (.notSubscriptable v.typeName) else .error (.unhashable v.typeName)

/-- What a field is for. -/
def description (key : String) : String :=
  match knownFields.lookup key with
  | some (_, text) => text
  | none => "Required field: " ++ key

end Template

/-- A semantic field of a template: its key, display name and description.
Fields read back from a saved state may hold any value in each part. -/
structure FieldInfo where
  key : Value
  displayName : Value
  description : Value
deriving Inhabited

/-- The field of a key, with its display name and description. -/
def FieldInfo.ofKey (key : String) : FieldInfo :=
  ⟨.str key, .str (Template.displayName key), .str (Template.description key)⟩

end NodeFlow
