/-!
# The shader

The program that the graphics device runs for each corner of each instance.
-/

namespace Widgetry.Gpu

def shaderLines : List String := [
  "// Shared rectangle shader.",
  "//",
  "// Every rectangle is one instance of the same unit quad. The instance",
  "// carries the NDC top-left corner, the NDC extent (y negative, since",
  "// rectangles grow downwards on screen) and the fill color.",
  "",
  "struct VertexInput \x7b",
  "    @location(0) corner: vec2<f32>,",
  "\x7d;",
  "",
  "struct InstanceInput \x7b",
  "    @location(1) top_left: vec2<f32>,",
  "    @location(2) size: vec2<f32>,",
  "    @location(3) color: vec4<f32>,",
  "\x7d;",
  "",
  "struct VertexOutput \x7b",
  "    @builtin(position) position: vec4<f32>,",
  "    @location(0) color: vec4<f32>,",
  "\x7d;",
  "",
  "@vertex",
  "fn vs_main(vertex: VertexInput, instance: InstanceInput) -> VertexOutput \x7b",
  "    var out: VertexOutput;",
  "    let pos = instance.top_left + vertex.corner * instance.size;",
  "    out.position = vec4<f32>(pos, 0.0, 1.0);",
  "    out.color = instance.color;",
  "    return out;",
  "\x7d",
  "",
  "@fragment",
  "fn fs_main(in: VertexOutput) -> @location(0) vec4<f32> \x7b",
  "    return in.color;",
  "\x7d"]

def shaderSource : String := String.join (shaderLines.map (· ++ "\n"))

end Widgetry.Gpu
