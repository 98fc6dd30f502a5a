import RouteModule.Options

/-!
The templates that belong to the frameworks. A template is given line by line; every line ends with
a line break.
-/

namespace RouteModule.Template

/-- The text of lines, each with a line break behind it. -/
def ofLines (lines : List String) : Text := lines.flatMap fun l => l.toList ++ ['\n']

def expressLines : List String := [
    "/* tslint:disable */",
    "/* eslint-disable */",
    "// WARNING: This file was auto-generated. Do not modify it directly.",
    "import type \x7b TsoaRoute \x7d from '@tsoa/runtime';",
    "import \x7b fetchMiddlewares, ExpressTemplateService \x7d from '@tsoa/runtime';",
    "\x7b% for controller in controllers -%\x7d",
    "import \x7b \x7b\x7b controller.name \x7d\x7d \x7d from '\x7b\x7b controller.modulePath " ++
      "\x7d\x7d';",
    "\x7b% endfor -%\x7d",
    "\x7b% if useSecurity and authenticationModule -%\x7d",
    "import \x7b expressAuthentication \x7d from '\x7b\x7b authenticationModule \x7d\x7d';",
    "\x7b% endif -%\x7d",
    "\x7b% if iocModule -%\x7d",
    "import \x7b iocContainer \x7d from '\x7b\x7b iocModule \x7d\x7d';",
    "import type \x7b IocContainer, IocContainerFactory \x7d from '@tsoa/runtime';",
    "\x7b% endif -%\x7d",
    "import type \x7b Request as ExRequest, Response as ExResponse, RequestHandler, Router " ++
      "\x7d from 'express';",
    "\x7b% if useSecurity and authenticationModule %\x7d",
    "const expressAuthenticationRecasted = expressAuthentication as (req: ExRequest, " ++
      "securityName: string, scopes?: string[], res?: ExResponse) => Promise<any>;",
    "\x7b% endif %\x7d",
    "const models: TsoaRoute.Models = \x7b",
    "\x7b%- for name, model in models %\x7d",
    "    \"\x7b\x7b name \x7d\x7d\": \x7b",
    "        \"dataType\": \"\x7b\x7b model.dataType \x7d\x7d\",",
    "\x7b%- if model.dataType == \"refObject\" %\x7d",
    "        \"properties\": \x7b\x7b model.properties | json \x7d\x7d,",
    "        \"additionalProperties\": \x7b\x7b " ++
      "additional_props(schema=model.additionalProperties) \x7d\x7d,",
    "\x7b%- elif model.dataType == \"refEnum\" %\x7d",
    "        \"enums\": \x7b\x7b model.enums | json \x7d\x7d,",
    "\x7b%- else %\x7d",
    "        \"type\": \x7b\x7b model.type | json \x7d\x7d,",
    "        \"validators\": \x7b\x7d,",
    "\x7b%- endif %\x7d",
    "    \x7d,",
    "\x7b%- endfor %\x7d",
    "\x7d;",
    "const templateService = new ExpressTemplateService(models, \x7b\x7b minimalSwaggerConfig " ++
      "| json \x7d\x7d);",
    "",
    "export function RegisterRoutes(app: Router) \x7b",
    "\x7b%- for controller in controllers %\x7d",
    "\x7b%- for action in controller.actions %\x7d",
    "",
    "    const args\x7b\x7b controller.name \x7d\x7d_\x7b\x7b action.name \x7d\x7d: " ++
      "Record<string, TsoaRoute.ParameterSchema> = \x7b\x7b action.parameters | json \x7d\x7d;",
    "    app.\x7b\x7b action.method \x7d\x7d('\x7b\x7b action.fullPath \x7d\x7d',",
    "\x7b%- if action.security | length > 0 %\x7d",
    "        authenticateMiddleware(\x7b\x7b action.security | json \x7d\x7d),",
    "\x7b%- endif %\x7d",
    "        ...(fetchMiddlewares<RequestHandler>(\x7b\x7b controller.name \x7d\x7d)),",
    "        ...(fetchMiddlewares<RequestHandler>(\x7b\x7b controller.name " ++
      "\x7d\x7d.prototype.\x7b\x7b action.name \x7d\x7d)),",
    "",
    "        async function \x7b\x7b controller.name \x7d\x7d_\x7b\x7b action.name " ++
      "\x7d\x7d(request: ExRequest, response: ExResponse, next: any) \x7b",
    "            let validatedArgs: any[] = [];",
    "            try \x7b",
    "                validatedArgs = templateService.getValidatedArgs(\x7b args: args\x7b\x7b " ++
      "controller.name \x7d\x7d_\x7b\x7b action.name \x7d\x7d, request, response \x7d);",
    "\x7b%- if iocModule %\x7d",
    "                const container: IocContainer = typeof iocContainer === 'function' ? " ++
      "(iocContainer as IocContainerFactory)(request) : iocContainer;",
    "                const controller: any = await container.get<\x7b\x7b controller.name " ++
      "\x7d\x7d>(\x7b\x7b controller.name \x7d\x7d);",
    "\x7b%- else %\x7d",
    "                const controller = new \x7b\x7b controller.name \x7d\x7d();",
    "\x7b%- endif %\x7d",
    "",
    "                await templateService.apiHandler(\x7b",
    "                    methodName: '\x7b\x7b action.name \x7d\x7d',",
    "                    controller,",
    "                    response,",
    "                    next,",
    "                    validatedArgs,",
    "                    successStatus: \x7b\x7b action.successStatus \x7d\x7d,",
    "                \x7d);",
    "            \x7d catch (err) \x7b",
    "                return next(err);",
    "            \x7d",
    "        \x7d);",
    "\x7b%- endfor %\x7d",
    "\x7b%- endfor %\x7d",
    "\x7b%- if useSecurity %\x7d",
    "",
    "    function authenticateMiddleware(security: TsoaRoute.Security[] = []) \x7b",
    "        return async function runAuthenticationMiddleware(request: any, response: any, " ++
      "next: any) \x7b",
    "            const failedAttempts: any[] = [];",
    "            for (const secMethod of security) \x7b",
    "                try \x7b",
    "                    const [name, scopes] = Object.entries(secMethod)[0] as [string, " ++
      "string[]];",
    "                    request['user'] = await \x7b% if authenticationModule " ++
      "%\x7dexpressAuthenticationRecasted(request, name, scopes, response)\x7b% else " ++
      "%\x7dPromise.reject(new Error(`No authentication module configured for " ++
      "$\x7bname\x7d`))\x7b% endif %\x7d;",
    "                    return next();",
    "                \x7d catch (err) \x7b",
    "                    failedAttempts.push(err);",
    "                \x7d",
    "            \x7d",
    "            return next(failedAttempts.pop());",
    "        \x7d;",
    "    \x7d",
    "\x7b%- endif %\x7d",
    "\x7d"]

def koaLines : List String := [
    "/* tslint:disable */",
    "/* eslint-disable */",
    "// WARNING: This file was auto-generated. Do not modify it directly.",
    "import type \x7b TsoaRoute \x7d from '@tsoa/runtime';",
    "import \x7b fetchMiddlewares, KoaTemplateService \x7d from '@tsoa/runtime';",
    "\x7b% for controller in controllers -%\x7d",
    "import \x7b \x7b\x7b controller.name \x7d\x7d \x7d from '\x7b\x7b controller.modulePath " ++
      "\x7d\x7d';",
    "\x7b% endfor -%\x7d",
    "\x7b% if useSecurity and authenticationModule -%\x7d",
    "import \x7b koaAuthentication \x7d from '\x7b\x7b authenticationModule \x7d\x7d';",
    "\x7b% endif -%\x7d",
    "\x7b% if iocModule -%\x7d",
    "import \x7b iocContainer \x7d from '\x7b\x7b iocModule \x7d\x7d';",
    "import type \x7b IocContainer, IocContainerFactory \x7d from '@tsoa/runtime';",
    "\x7b% endif -%\x7d",
    "import type \x7b Context, Next, Middleware \x7d from 'koa';",
    "import type * as KoaRouter from '@koa/router';",
    "",
    "const models: TsoaRoute.Models = \x7b",
    "\x7b%- for name, model in models %\x7d",
    "    \"\x7b\x7b name \x7d\x7d\": \x7b",
    "        \"dataType\": \"\x7b\x7b model.dataType \x7d\x7d\",",
    "\x7b%- if model.dataType == \"refObject\" %\x7d",
    "        \"properties\": \x7b\x7b model.properties | json \x7d\x7d,",
    "        \"additionalProperties\": \x7b\x7b " ++
      "additional_props(schema=model.additionalProperties) \x7d\x7d,",
    "\x7b%- elif model.dataType == \"refEnum\" %\x7d",
    "        \"enums\": \x7b\x7b model.enums | json \x7d\x7d,",
    "\x7b%- else %\x7d",
    "        \"type\": \x7b\x7b model.type | json \x7d\x7d,",
    "        \"validators\": \x7b\x7d,",
    "\x7b%- endif %\x7d",
    "    \x7d,",
    "\x7b%- endfor %\x7d",
    "\x7d;",
    "const templateService = new KoaTemplateService(models, \x7b\x7b minimalSwaggerConfig | " ++
      "json \x7d\x7d);",
    "",
    "export function RegisterRoutes(router: KoaRouter) \x7b",
    "\x7b%- for controller in controllers %\x7d",
    "\x7b%- for action in controller.actions %\x7d",
    "",
    "    const args\x7b\x7b controller.name \x7d\x7d_\x7b\x7b action.name \x7d\x7d: " ++
      "Record<string, TsoaRoute.ParameterSchema> = \x7b\x7b action.parameters | json \x7d\x7d;",
    "    router.\x7b\x7b action.method \x7d\x7d('\x7b\x7b action.fullPath \x7d\x7d',",
    "\x7b%- if action.security | length > 0 %\x7d",
    "        authenticateMiddleware(\x7b\x7b action.security | json \x7d\x7d),",
    "\x7b%- endif %\x7d",
    "        ...(fetchMiddlewares<Middleware>(\x7b\x7b controller.name \x7d\x7d)),",
    "        ...(fetchMiddlewares<Middleware>(\x7b\x7b controller.name " ++
      "\x7d\x7d.prototype.\x7b\x7b action.name \x7d\x7d)),",
    "",
    "        async function \x7b\x7b controller.name \x7d\x7d_\x7b\x7b action.name " ++
      "\x7d\x7d(context: Context, next: Next) \x7b",
    "            let validatedArgs: any[] = [];",
    "            try \x7b",
    "                validatedArgs = templateService.getValidatedArgs(\x7b args: args\x7b\x7b " ++
      "controller.name \x7d\x7d_\x7b\x7b action.name \x7d\x7d, context, next \x7d);",
    "            \x7d catch (err) \x7b",
    "                const error = err as any;",
    "                error.message ||= JSON.stringify(\x7b fields: error.fields \x7d);",
    "                context.status = error.status;",
    "                context.throw(context.status, error.message, error);",
    "            \x7d",
    "\x7b%- if iocModule %\x7d",
    "            const container: IocContainer = typeof iocContainer === 'function' ? " ++
      "(iocContainer as IocContainerFactory)(context.request) : iocContainer;",
    "            const controller: any = await container.get<\x7b\x7b controller.name " ++
      "\x7d\x7d>(\x7b\x7b controller.name \x7d\x7d);",
    "\x7b%- else %\x7d",
    "            const controller = new \x7b\x7b controller.name \x7d\x7d();",
    "\x7b%- endif %\x7d",
    "",
    "            return templateService.apiHandler(\x7b",
    "                methodName: '\x7b\x7b action.name \x7d\x7d',",
    "                controller,",
    "                context,",
    "                validatedArgs,",
    "                successStatus: \x7b\x7b action.successStatus \x7d\x7d,",
    "            \x7d);",
    "        \x7d);",
    "\x7b%- endfor %\x7d",
    "\x7b%- endfor %\x7d",
    "\x7b%- if useSecurity %\x7d",
    "",
    "    function authenticateMiddleware(security: TsoaRoute.Security[] = []) \x7b",
    "        return async function runAuthenticationMiddleware(context: any, next: any) \x7b",
    "            const failedAttempts: any[] = [];",
    "            for (const secMethod of security) \x7b",
    "                try \x7b",
    "                    const [name, scopes] = Object.entries(secMethod)[0] as [string, " ++
      "string[]];",
    "                    context.request['user'] = await \x7b% if authenticationModule " ++
      "%\x7dkoaAuthentication(context.request, name, scopes)\x7b% else %\x7dPromise.reject(new " ++
      "Error(`No authentication module configured for $\x7bname\x7d`))\x7b% endif %\x7d;",
    "                    return next();",
    "                \x7d catch (err) \x7b",
    "                    failedAttempts.push(err);",
    "                \x7d",
    "            \x7d",
    "            context.throw(401, failedAttempts.pop());",
    "        \x7d;",
    "    \x7d",
    "\x7b%- endif %\x7d",
    "\x7d"]

def hapiLines : List String := [
    "/* tslint:disable */",
    "/* eslint-disable */",
    "// WARNING: This file was auto-generated. Do not modify it directly.",
    "import type \x7b TsoaRoute \x7d from '@tsoa/runtime';",
    "import \x7b fetchMiddlewares, HapiTemplateService \x7d from '@tsoa/runtime';",
    "\x7b% for controller in controllers -%\x7d",
    "import \x7b \x7b\x7b controller.name \x7d\x7d \x7d from '\x7b\x7b controller.modulePath " ++
      "\x7d\x7d';",
    "\x7b% endfor -%\x7d",
    "\x7b% if useSecurity and authenticationModule -%\x7d",
    "import \x7b hapiAuthentication \x7d from '\x7b\x7b authenticationModule \x7d\x7d';",
    "\x7b% endif -%\x7d",
    "\x7b% if iocModule -%\x7d",
    "import \x7b iocContainer \x7d from '\x7b\x7b iocModule \x7d\x7d';",
    "import type \x7b IocContainer, IocContainerFactory \x7d from '@tsoa/runtime';",
    "\x7b% endif -%\x7d",
    "import \x7b boomify, isBoom, type Payload \x7d from '@hapi/boom';",
    "import type \x7b Request, ResponseToolkit, RouteOptionsPreAllOptions, Server \x7d from " ++
      "'@hapi/hapi';",
    "",
    "const models: TsoaRoute.Models = \x7b",
    "\x7b%- for name, model in models %\x7d",
    "    \"\x7b\x7b name \x7d\x7d\": \x7b",
    "        \"dataType\": \"\x7b\x7b model.dataType \x7d\x7d\",",
    "\x7b%- if model.dataType == \"refObject\" %\x7d",
    "        \"properties\": \x7b\x7b model.properties | json \x7d\x7d,",
    "        \"additionalProperties\": \x7b\x7b " ++
      "additional_props(schema=model.additionalProperties) \x7d\x7d,",
    "\x7b%- elif model.dataType == \"refEnum\" %\x7d",
    "        \"enums\": \x7b\x7b model.enums | json \x7d\x7d,",
    "\x7b%- else %\x7d",
    "        \"type\": \x7b\x7b model.type | json \x7d\x7d,",
    "        \"validators\": \x7b\x7d,",
    "\x7b%- endif %\x7d",
    "    \x7d,",
    "\x7b%- endfor %\x7d",
    "\x7d;",
    "const templateService = new HapiTemplateService(models, \x7b\x7b minimalSwaggerConfig | " ++
      "json \x7d\x7d, \x7b boomify, isBoom \x7d);",
    "",
    "export function RegisterRoutes(server: Server) \x7b",
    "\x7b%- for controller in controllers %\x7d",
    "\x7b%- for action in controller.actions %\x7d",
    "",
    "    const args\x7b\x7b controller.name \x7d\x7d_\x7b\x7b action.name \x7d\x7d: " ++
      "Record<string, TsoaRoute.ParameterSchema> = \x7b\x7b action.parameters | json \x7d\x7d;",
    "    server.route(\x7b",
    "        method: '\x7b\x7b action.method \x7d\x7d',",
    "        path: '\x7b\x7b action.fullPath \x7d\x7d',",
    "        options: \x7b",
    "            pre: [",
    "\x7b%- if action.security | length > 0 %\x7d",
    "                \x7b method: authenticateMiddleware(\x7b\x7b action.security | json " ++
      "\x7d\x7d) \x7d,",
    "\x7b%- endif %\x7d",
    "                ...(fetchMiddlewares<RouteOptionsPreAllOptions>(\x7b\x7b controller.name " ++
      "\x7d\x7d)),",
    "                ...(fetchMiddlewares<RouteOptionsPreAllOptions>(\x7b\x7b controller.name " ++
      "\x7d\x7d.prototype.\x7b\x7b action.name \x7d\x7d)),",
    "            ],",
    "            handler: async function \x7b\x7b controller.name \x7d\x7d_\x7b\x7b " ++
      "action.name \x7d\x7d(request: Request, h: ResponseToolkit) \x7b",
    "                let validatedArgs: any[] = [];",
    "                try \x7b",
    "                    validatedArgs = templateService.getValidatedArgs(\x7b args: " ++
      "args\x7b\x7b controller.name \x7d\x7d_\x7b\x7b action.name \x7d\x7d, request, h \x7d);",
    "                \x7d catch (err) \x7b",
    "                    const error = err as any;",
    "                    if (isBoom(error)) \x7b",
    "                        throw error;",
    "                    \x7d",
    "                    const boomErr = boomify(error instanceof Error ? error : new " ++
      "Error(error.message));",
    "                    boomErr.output.statusCode = error.status || 500;",
    "                    boomErr.output.payload = \x7b name: error.name, fields: error.fields, " ++
      "message: error.message \x7d as unknown as Payload;",
    "                    throw boomErr;",
    "                \x7d",
    "\x7b%- if iocModule %\x7d",
    "                const container: IocContainer = typeof iocContainer === 'function' ? " ++
      "(iocContainer as IocContainerFactory)(request) : iocContainer;",
    "                const controller: any = await container.get<\x7b\x7b controller.name " ++
      "\x7d\x7d>(\x7b\x7b controller.name \x7d\x7d);",
    "\x7b%- else %\x7d",
    "                const controller = new \x7b\x7b controller.name \x7d\x7d();",
    "\x7b%- endif %\x7d",
    "",
    "                return templateService.apiHandler(\x7b",
    "                    methodName: '\x7b\x7b action.name \x7d\x7d',",
    "                    controller,",
    "                    h,",
    "                    validatedArgs,",
    "                    successStatus: \x7b\x7b action.successStatus \x7d\x7d,",
    "                \x7d);",
    "            \x7d,",
    "        \x7d,",
    "    \x7d);",
    "\x7b%- endfor %\x7d",
    "\x7b%- endfor %\x7d",
    "\x7b%- if useSecurity %\x7d",
    "",
    "    function authenticateMiddleware(security: TsoaRoute.Security[] = []) \x7b",
    "        return async function runAuthenticationMiddleware(request: any, h: any) \x7b",
    "            const failedAttempts: any[] = [];",
    "            for (const secMethod of security) \x7b",
    "                try \x7b",
    "                    const [name, scopes] = Object.entries(secMethod)[0] as [string, " ++
      "string[]];",
    "                    request['user'] = await \x7b% if authenticationModule " ++
      "%\x7dhapiAuthentication(request, name, scopes, h)\x7b% else %\x7dPromise.reject(new " ++
      "Error(`No authentication module configured for $\x7bname\x7d`))\x7b% endif %\x7d;",
    "                    return request['user'];",
    "                \x7d catch (err) \x7b",
    "                    failedAttempts.push(err);",
    "                \x7d",
    "            \x7d",
    "            throw boomify(failedAttempts.pop() ?? new Error('Unauthorized'), \x7b " ++
      "statusCode: 401 \x7d);",
    "        \x7d;",
    "    \x7d",
    "\x7b%- endif %\x7d",
    "\x7d"]

end RouteModule.Template

namespace RouteModule.Framework

def templateName : Framework → String
  | express => "express/routes.ts.tera"
  | koa => "koa/routes.ts.tera"
  | hapi => "hapi/routes.ts.tera"

def template : Framework → Text
  | express => Template.ofLines Template.expressLines
  | koa => Template.ofLines Template.koaLines
  | hapi => Template.ofLines Template.hapiLines

end RouteModule.Framework
