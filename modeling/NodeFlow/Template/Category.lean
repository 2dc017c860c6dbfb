import NodeFlow.Json.Access
import NodeFlow.Text.CaseMap
/-!
# Workflow categories

A workflow template is of one of five categories: text to image, image
inpainting, image editing, text to video and image to video. The category fixes
which semantic fields a template must expose (`Category.requiredKeys`) and which
it may (`Category.optionalKeys`, adjusted for the loader and guider nodes that
are present).

`Category.detect` recognises a category from the class types a graph uses:
the most specific marker wins, video before editing before inpainting before
plain text to image, and a graph with no known loader has none.
-/

namespace NodeFlow

open Json

/-- The kind of generation a workflow performs. -/
inductive Category where
  | textToImage
  | imageInpainting
  | imageEditing
  | textToVideo
  | imageToVideo
deriving DecidableEq, Repr, Inhabited

namespace Category

/-- Every category. -/
def all : List Category :=
  [.textToImage, .imageInpainting, .imageEditing, .textToVideo, .imageToVideo]

/-- The short code a category is stored under. -/
def code : Category → String
  | .textToImage => "tti"
  | .imageInpainting => "iti_inpainting"
  | .imageEditing => "iti_editing"
  | .textToVideo => "ttv"
  | .imageToVideo => "itv"

/-- The category a value names: only the exact code of a category names it. -/
def ofValue (v : Value) : Outcome Category :=
  let named := match v with
    | .str s => all.find? (·.code == s)
    | _ => none
  match named with
  | some c => .ok c
  | none => .error (.notAMember v.literal "WorkflowCategory")

/-- Whether the category produces video. -/
def isVideo : Category → Bool
  | .textToVideo | .imageToVideo => true
  | _ => false

/-- Whether the category starts from an input image. -/
def needsInputImage : Category → Bool
  | .imageInpainting | .imageEditing | .imageToVideo => true
  | _ => false

/-- The fields every template of the category must expose. -/
def requiredKeys : Category → List String
  | .textToImage | .textToVideo => ["positive_text"]
  | .imageInpainting | .imageEditing | .imageToVideo => ["positive_text", "image"]

/-- Optional fields of text-to-image templates. -/
def imageKeys : List String :=
  ["negative_text", "ckpt_name", "unet_name", "vae_name", "clip_name", "width", "height",
    "steps", "cfg", "sampler_name", "scheduler", "lora_name"]

/-- Optional fields of templates that start from an image: the output size is
given in megapixels. -/
def imageInputKeys : List String :=
  ["negative_text", "ckpt_name", "unet_name", "vae_name", "clip_name", "megapixels",
    "steps", "cfg", "sampler_name", "scheduler", "lora_name"]

/-- Optional fields of video templates: two noise passes with their own models. -/
def videoKeys : List String :=
  ["negative_text", "highnoise_unet_name", "lownoise_unet_name", "highnoise_lora_name",
    "lownoise_lora_name", "vae_name", "clip_name", "width", "height", "length", "fps"]

/-- The optional fields of a category before any adjustment. -/
def baseOptionalKeys : Category → List String
  | .textToImage => imageKeys
  | .imageInpainting | .imageEditing => imageInputKeys
  | .textToVideo | .imageToVideo => videoKeys

/-- The optional fields of a category for a graph with the given class types.
A single-conditioning guider drops the guidance scale and the negative prompt;
a dual text-encoder loader, outside video, splits the encoder name in two. -/
def optionalKeys (c : Category) (present : List String) : List String :=
  let keys := c.baseOptionalKeys
  let keys := if present.contains "BasicGuider" then
      keys.filter fun k => k != "cfg" && k != "negative_text"
    else keys
  if present.contains "DualCLIPLoader" && !c.isVideo && keys.contains "clip_name" then
    keys.flatMap fun k => if k == "clip_name" then ["clip_name1", "clip_name2"] else [k]
  else keys

/-- The optional fields for class types given as any value: nothing for a value
that counts as false, otherwise its members, which must be keys. -/
def optionalKeysOf (c : Category) (classTypes : Value) : Outcome (List String) := do
  let members ← classTypes.elements
  match members.find? (!·.hashable) with
  | some v => .error (.unhashable v.typeName)
  | none => return c.optionalKeys (members.filterMap Value.str?)

/-- Class-type fragments that mark a video workflow. -/
def videoMarkers : List String := ["createvideo", "vhs_videocombine", "videolinearcfgguidance"]

/-- Class-type fragments that mark an image-editing workflow. -/
def editingMarkers : List String := ["textencodeqwenimageeditplus", "qwenimageedit"]

/-- Class-type fragments that mark an inpainting workflow. -/
def inpaintMarkers : List String := ["setlatentnoisemask", "inpaintmodel", "inpaint"]

/-- Whether some lowered class type contains one of the markers. -/
def anyMarked (lowered markers : List String) : Bool :=
  lowered.any fun c => markers.any fun m => Text.occursIn m c

/-- The category of a graph whose class types, lowered, are `lowered`. -/
def ofLowered (lowered : List String) : Option Category :=
  let video := anyMarked lowered videoMarkers
  let loadsImage := lowered.contains "loadimage"
  if video && loadsImage then some .imageToVideo
  else if video then some .textToVideo
  else if anyMarked lowered editingMarkers then some .imageEditing
  else if anyMarked lowered inpaintMarkers || loadsImage then some .imageInpainting
  else if lowered.contains "checkpointloadersimple" || lowered.contains "unetloader" then
    some .textToImage
  else none

/-- The category recognised from the class types of a graph; empty names are
ignored. -/
def detect (classTypes : List String) : Option Category :=
  ofLowered ((classTypes.filter (!·.isEmpty)).map Text.toLower)

/-- The category recognised from class types given as any value: it must be
something to run through, and every member that counts as true a text. -/
def detectOf (classTypes : Value) : Outcome (Option Category) := do
  let members ← classTypes.iterate
  let lowered ← (members.filter Value.truthy).mapM fun
    | .str s => .ok (Text.toLower s)
    | v => .error (.noAttribute v.typeName "lower")
  return ofLowered lowered

end Category

end NodeFlow
